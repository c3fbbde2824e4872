import UiDoc.Binary64

/-!
# Decimal texts of doubles

Three rules connect a double with decimal digits.  `shortest` chooses the fewest digits that read
back as the same double, and of those the nearest; `fixed` rounds the exact binary value to a number
of places; `read` accepts a decimal numeral and rounds it once.  All of them compute with natural
numbers and never with doubles.
-/

namespace UiDoc

/-- The number `digits * 10 ^ exponent`. -/
structure Decimal where
  digits : Nat
  exponent : Int
  deriving DecidableEq, Repr

namespace Decimal

/-- Which neighbour a value half-way between two neighbours goes to. -/
inductive Tie where
  | toEven
  | up
  deriving DecidableEq, Repr

/-- `num / den` rounded to the nearest integer. -/
def roundDiv (tie : Tie) (num den : Nat) : Nat :=
  let quotient := num / den
  let rest := num % den
  if 2 * rest < den then quotient
  else if den < 2 * rest then quotient + 1
  else
    match tie with
    | .up => quotient + 1
    | .toEven => if quotient % 2 = 0 then quotient else quotient + 1

/-- Drops trailing zeros from the digits, at most as many as there is fuel. -/
def dropZeros : Nat → Decimal → Decimal
  | 0, d => d
  | fuel + 1, d =>
      if d.digits ≠ 0 ∧ d.digits % 10 = 0 then dropZeros fuel ⟨d.digits / 10, d.exponent + 1⟩ else d

/-- The decimal exponent of the leading digit of `num / den`. -/
def leadingExponent (num den : Nat) : Int :=
  let guess := (Int.ofNat num.log2 - Int.ofNat den.log2) * 30103 / 100000
  let atLeast (e : Int) : Bool := den * tenTo e.toNat ≤ num * tenTo (-e).toNat
  if atLeast (guess + 1) then guess + 1
  else if atLeast guess then guess
  else guess - 1

/-- The reals that round to one double, as quarter units over a common denominator. -/
structure Interval where
  low : Nat
  value : Nat
  high : Nat
  den : Nat
  /-- Whether the two ends belong to the interval. -/
  closed : Bool

namespace Interval

/-- The reals that round to the positive double `significand * 2 ^ exponent`.  Below a power of two
the next double is only half as far away. -/
def ofBinary (significand : Nat) (exponent : Int) : Interval :=
  let up := twoTo exponent.toNat
  let below := if significand = twoTo 52 ∧ -1074 < exponent then 1 else 2
  { low := (4 * significand - below) * up
    value := 4 * significand * up
    high := (4 * significand + 2) * up
    den := 4 * twoTo (-exponent).toNat
    closed := significand % 2 == 0 }

/-- Whether `digits * 10 ^ exponent` lies in the interval. -/
def contains (i : Interval) (d : Decimal) : Bool :=
  let point := d.digits * tenTo d.exponent.toNat * i.den
  let scale := tenTo (-d.exponent).toNat
  if i.closed then decide (i.low * scale ≤ point ∧ point ≤ i.high * scale)
  else decide (i.low * scale < point ∧ point < i.high * scale)

/-- The point of the interval on the grid of multiples of `10 ^ exponent` that is nearest to its
value, if the grid has a point in the interval. -/
def nearest? (i : Interval) (tie : Tie) (exponent : Int) : Option Decimal :=
  let num := i.value * tenTo (-exponent).toNat
  let den := i.den * tenTo exponent.toNat
  let best : Decimal := ⟨roundDiv tie num den, exponent⟩
  let below : Decimal := ⟨num / den, exponent⟩
  let above : Decimal := ⟨num / den + 1, exponent⟩
  if i.contains best then some best
  else if i.contains below then some below
  else if i.contains above then some above
  else none

/-- The first grid with a point in the interval, from the coarsest of `count` grids on. -/
def search (i : Interval) (tie : Tie) : (count : Nat) → (exponent : Int) → Decimal
  | 0, exponent =>
      ⟨roundDiv tie (i.value * tenTo (-exponent).toNat) (i.den * tenTo exponent.toNat), exponent⟩
  | count + 1, exponent => (i.nearest? tie exponent).getD (i.search tie count (exponent - 1))

end Interval

/-- The fewest digits that read back as `significand * 2 ^ exponent`, and of those the nearest.
Seventeen digits always suffice. -/
def shortest (tie : Tie) (significand : Nat) (exponent : Int) : Decimal :=
  if significand = 0 then ⟨0, 0⟩
  else
    let i := Interval.ofBinary significand exponent
    dropZeros 17 (i.search tie 17 (leadingExponent i.value i.den))

/-- The digits of a natural number, at least `width` of them. -/
def padded (width n : Nat) : List Char :=
  let digits := Nat.toDigits 10 n
  List.replicate (width - digits.length) '0' ++ digits

/-- The digits with `places` of them after the point, and no point if `places` is zero. -/
def withPoint (places n : Nat) : List Char :=
  let digits := padded (places + 1) n
  let whole := digits.length - places
  if places = 0 then digits
  else digits.take whole ++ '.' :: digits.drop whole

/-- The decimal written out without an exponent. -/
def positional (d : Decimal) : List Char :=
  match d.exponent with
  | .ofNat e => padded 1 (d.digits * tenTo e)
  | .negSucc e => withPoint (e + 1) d.digits

/-- The decimal exponent of the first digit. -/
def scientificExponent (d : Decimal) : Int :=
  d.exponent + Int.ofNat (Nat.toDigits 10 d.digits).length - 1

/-- The decimal written with one digit before the point, and its exponent with a sign. -/
def scientific (d : Decimal) : List Char :=
  let e := d.scientificExponent
  let mantissa :=
    match Nat.toDigits 10 d.digits with
    | [] => []
    | [c] => [c]
    | c :: cs => c :: '.' :: cs
  mantissa ++ 'e' :: (if e < 0 then '-' else '+') :: Nat.toDigits 10 e.natAbs

/-- A double rounded to `places` decimal places, half-way cases going to the even neighbour. -/
def fixed (places : Nat) (x : Float) : List Char :=
  match Binary64.ofFloat x with
  | .nan => "NaN".toList
  | .infinite negative => if negative then "-inf".toList else "inf".toList
  | .finite negative significand exponent =>
      let num := significand * twoTo exponent.toNat * tenTo places
      let den := twoTo (-exponent).toNat
      (if negative then ['-'] else []) ++ withPoint places (roundDiv .toEven num den)

/-- The decimal numeral of a natural number. -/
def natText (n : Nat) : String :=
  String.ofList (Nat.toDigits 10 n)

/-- The value of a decimal digit. -/
def digit? (c : Char) : Option Nat :=
  if '0' ≤ c ∧ c ≤ '9' then some (c.toNat - '0'.toNat) else none

/-- Reads as many digits as there are; returns their number, the value that they extend `acc` to,
and the rest.  Once the value reaches `limit`, further digits do not change it. -/
def readDigits (limit : Nat) : Nat → Nat → List Char → Nat × Nat × List Char
  | count, acc, [] => (count, acc, [])
  | count, acc, c :: cs =>
      match digit? c with
      | some d => readDigits limit (count + 1) (if acc < limit then 10 * acc + d else acc) cs
      | none => (count, acc, c :: cs)

/-- How many digits of a numeral are kept, from the first that is not zero.  Points half-way between
two doubles have fewer. -/
def precision : Nat := 800

/-- The digits of a numeral, without its point. -/
structure Mantissa where
  /-- The number that the kept digits stand for. -/
  digits : Nat := 0
  /-- How many digits are kept. -/
  kept : Nat := 0
  /-- How many digits behind them are not. -/
  dropped : Nat := 0
  /-- Whether one of those is not zero. -/
  inexact : Bool := false

namespace Mantissa

/-- Adds a digit. -/
def push (m : Mantissa) (d : Nat) : Mantissa :=
  if m.kept < precision then
    { m with
      digits := 10 * m.digits + d
      kept := if m.digits = 0 ∧ d = 0 then 0 else m.kept + 1 }
  else { m with dropped := m.dropped + 1, inexact := m.inexact || d != 0 }

/-- Adds as many digits as there are; returns their number and the rest. -/
def readFrom : (count : Nat) → Mantissa → List Char → Nat × Mantissa × List Char
  | count, m, [] => (count, m, [])
  | count, m, c :: cs =>
      match digit? c with
      | some d => readFrom (count + 1) (m.push d) cs
      | none => (count, m, c :: cs)

/-- The digits times a power of ten.  One digit stands for all that are not kept, unless those are
zeros. -/
def toDecimal (m : Mantissa) (exponent : Int) : Decimal :=
  if m.inexact then ⟨10 * m.digits + 1, exponent + Int.ofNat m.dropped - 1⟩
  else ⟨m.digits, exponent + Int.ofNat m.dropped⟩

end Mantissa

/-- No exponent of a numeral is read beyond this one by more than a digit. -/
def exponentLimit : Nat := twoTo 16

/-- Reads the exponent part of a numeral, if there is one; `none` if it has no digits. -/
def readExponent : List Char → Option (Int × List Char)
  | [] => some (0, [])
  | c :: cs =>
      if c = 'e' ∨ c = 'E' then
        let (negative, cs) :=
          match cs with
          | '-' :: rest => (true, rest)
          | '+' :: rest => (false, rest)
          | rest => (false, rest)
        match readDigits exponentLimit 0 0 cs with
        | (0, _, _) => none
        | (_, n, rest) => some (Binary64.signed negative n, rest)
      else some (0, c :: cs)

/-- Reads an unsigned decimal numeral: digits with an optional fraction, or a fraction alone, and an
optional exponent.  Nothing may follow it. -/
def readUnsigned (cs : List Char) : Option Decimal :=
  let (wholeCount, whole, rest) := Mantissa.readFrom 0 {} cs
  let (fractionCount, mantissa, rest) :=
    match rest with
    | '.' :: rest => whole.readFrom 0 rest
    | rest => (0, whole, rest)
  if wholeCount + fractionCount = 0 then none
  else
    match readExponent rest with
    | some (e, []) => some (mantissa.toDecimal (e - Int.ofNat fractionCount))
    | _ => none

/-- The double nearest to a decimal; a decimal beyond the range of doubles gives an infinity. -/
def toFloat (d : Decimal) : Float :=
  let size := Int.ofNat (Nat.toDigits 10 d.digits).length + d.exponent
  if d.digits = 0 then 0.0
  else if 310 < size then Binary64.infinity
  else if size < -330 then 0.0
  else Float.ofScientific d.digits (decide (d.exponent < 0)) d.exponent.natAbs

/-- Splits off a sign. -/
def readSign : List Char → Bool × List Char
  | '-' :: cs => (true, cs)
  | '+' :: cs => (false, cs)
  | cs => (false, cs)

/-- The letters of `A` to `Z` in lower case; other characters as they are. -/
def asciiLower (c : Char) : Char :=
  if 'A' ≤ c ∧ c ≤ 'Z' then Char.ofNat (c.toNat + 32) else c

/-- Reads a double: a decimal numeral or, in any case of letters, one of the words `inf`, `infinity`
and `nan`, each with an optional sign. -/
def read (cs : List Char) : Option Float :=
  let (negative, cs) := readSign cs
  let word := String.ofList (cs.map asciiLower)
  if word = "inf" ∨ word = "infinity" then some (Binary64.withSign negative Binary64.infinity)
  else if word = "nan" then some Binary64.notANumber
  else (readUnsigned cs).map fun d => Binary64.withSign negative d.toFloat

/-- Reads a natural number below `2 ^ 64`: digits after an optional plus sign. -/
def readCount (cs : List Char) : Option Nat :=
  let digits :=
    match cs with
    | '+' :: rest => rest
    | rest => rest
  match readDigits (twoTo 64) 0 0 digits with
  | (count, n, []) => if count ≠ 0 ∧ n < twoTo 64 then some n else none
  | _ => none

end Decimal

end UiDoc
