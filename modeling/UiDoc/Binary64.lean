import UiDoc.Arithmetic

/-!
# Doubles as exact numbers

A double is a sign, a natural significand and a power of two, or one of the three values that are
not numbers.  This module takes a double apart into those pieces, so that whole parts, remainders
and conversions to integers are exact integer arithmetic, and puts the pieces together again.
-/

namespace UiDoc

/-- What a double stands for. -/
inductive Binary64 where
  | nan
  | infinite (negative : Bool)
  /-- The number `significand * 2 ^ exponent`, negated if `negative`. -/
  | finite (negative : Bool) (significand : Nat) (exponent : Int)
  deriving DecidableEq, Repr

namespace Binary64

/-- The pieces of a double.  Numbers below the normal range share the exponent `-1074`. -/
def ofFloat (x : Float) : Binary64 :=
  let bits := x.toBits.toNat
  let negative := decide (twoTo 63 ≤ bits)
  let biased := bits / twoTo 52 % twoTo 11
  let fraction := bits % twoTo 52
  if biased = 2047 then
    if fraction = 0 then .infinite negative else .nan
  else if biased = 0 then
    .finite negative fraction (-1074)
  else
    .finite negative (twoTo 52 + fraction) (Int.ofNat biased - 1075)

/-- Negates `x` if asked to. -/
def withSign (negative : Bool) (x : Float) : Float :=
  if negative then -x else x

/-- The double `significand * 2 ^ exponent` with the given sign, for a significand of at most 53
bits and an exponent of at least `-1074`: every such number is a double unless it is too large. -/
def toFloat (negative : Bool) (significand : Nat) (exponent : Int) : Float :=
  if significand = 0 then
    withSign negative 0.0
  else
    let target := max (exponent - Int.ofNat (52 - significand.log2)) (-1074)
    let scaled := significand * twoTo (exponent - target).toNat
    let bits :=
      if scaled < twoTo 52 then scaled
      else (target + 1075).toNat * twoTo 52 + (scaled - twoTo 52)
    withSign negative (Float.ofBits (UInt64.ofNat bits))

/-- The whole part of `significand * 2 ^ exponent`. -/
def wholePart (significand : Nat) : Int → Nat
  | .ofNat e => significand * twoTo e
  | .negSucc e => significand / twoTo (e + 1)

/-- Whether `significand * 2 ^ exponent` has no fractional part. -/
def isWhole (significand : Nat) : Int → Bool
  | .ofNat _ => true
  | .negSucc e => significand % twoTo (e + 1) == 0

/-- The integer with the given sign and magnitude. -/
def signed (negative : Bool) (magnitude : Nat) : Int :=
  if negative then -Int.ofNat magnitude else Int.ofNat magnitude

/-- The whole part of a finite double, rounded towards zero. -/
def truncate? (x : Float) : Option Int :=
  match ofFloat x with
  | .finite negative significand exponent => some (signed negative (wholePart significand exponent))
  | _ => none

/-- Whether a double is an integer. -/
def isInteger (x : Float) : Bool :=
  match ofFloat x with
  | .finite _ significand exponent => isWhole significand exponent
  | _ => false

/-- The nearest point of the interval from `low` to `high`. -/
def clamp (low high n : Int) : Int :=
  max low (min high n)

/-- The whole part of a double as a signed 64-bit integer, clamped to its range; zero for a double
that is not a number. -/
def toInt64 (x : Float) : Int :=
  match ofFloat x with
  | .nan => 0
  | .infinite negative => if negative then -Int.ofNat (twoTo 63) else Int.ofNat (twoTo 63) - 1
  | .finite negative significand exponent =>
      clamp (-Int.ofNat (twoTo 63)) (Int.ofNat (twoTo 63) - 1)
        (signed negative (wholePart significand exponent))

/-- The whole part of a double as an unsigned 64-bit integer, clamped to its range; zero for a
double that is not a number. -/
def toCount (x : Float) : Nat :=
  match ofFloat x with
  | .nan => 0
  | .infinite negative => if negative then 0 else twoTo 64 - 1
  | .finite true _ _ => 0
  | .finite false significand exponent => min (twoTo 64 - 1) (wholePart significand exponent)

/-- The greatest integer that is not above a double. -/
def floor (x : Float) : Float :=
  match ofFloat x with
  | .finite negative significand exponent =>
      if isWhole significand exponent then x
      else
        let below := wholePart significand exponent
        withSign negative (Float.ofNat (if negative then below + 1 else below))
  | _ => x

/-- The least integer that is not below a double. -/
def ceil (x : Float) : Float :=
  -floor (-x)

/-- The integer nearest to a double on the side of zero. -/
def truncate (x : Float) : Float :=
  if x < 0.0 then ceil x else floor x

/-- The double that is not a number. -/
def notANumber : Float := 0.0 / 0.0

/-- The double above all others. -/
def infinity : Float := 1.0 / 0.0

/-- What is left of `x` after taking away `y` as often as it fits, with the sign of `x`.  The result
is exact. -/
def remainder (x y : Float) : Float :=
  match ofFloat x, ofFloat y with
  | .finite negative m e, .finite _ n f =>
      if n = 0 then notANumber
      else
        let unit := min e f
        let rest := (m * twoTo (e - unit).toNat) % (n * twoTo (f - unit).toNat)
        toFloat negative rest unit
  | .finite _ _ _, .infinite _ => x
  | _, _ => notANumber

/-- How two doubles compare, if both are numbers.  The two zeros are equal. -/
def compare (x y : Float) : Option Ordering :=
  if x < y then some .lt
  else if y < x then some .gt
  else if x == y then some .eq
  else none

/-- The smaller of two doubles that are numbers. -/
def least (x y : Float) : Float :=
  if y < x then y else x

/-- The larger of two doubles that are numbers. -/
def greatest (x y : Float) : Float :=
  if x < y then y else x

end Binary64

end UiDoc
