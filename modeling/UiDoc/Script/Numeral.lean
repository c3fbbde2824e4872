import UiDoc.Decimal
import UiDoc.Json.Draft
import UiDoc.Text.Identifier
import UiDoc.Script.Token

/-!
# Numerals of a script

A numeral is decimal, with an optional fraction and exponent, or it starts with zero and a letter
for its base, or with zero and another digit.  Underscores may stand between two digits.

No name and no digit may follow a numeral directly, except behind an exponent of a numeral that
starts with a zero.
-/

namespace UiDoc.Script

/-- The value of a digit in a base. -/
def digitIn? (base : Nat) (c : Char) : Option Nat :=
  (Json.hexValue? c).filter (· < base)

/-- Whether a character is a digit in a base. -/
def isDigitIn (base : Nat) (c : Char) : Bool :=
  (digitIn? base c).isSome

/-- A part of a numeral that has been read. -/
structure Digits where
  /-- The characters without underscores. -/
  text : List Char
  /-- Whether nothing is missing in it. -/
  sound : Bool
  /-- The text behind it. -/
  rest : List Char

/-- Reads digits in a base, and underscores between two of them. -/
def readDigits (base : Nat) (behindDigit : Bool) : List Char → Digits
  | [] => ⟨[], true, []⟩
  | c :: cs =>
      if isDigitIn base c then
        let more := readDigits base true cs
        { more with text := c :: more.text }
      else if c = '_' ∧ behindDigit then
        if cs.head?.any (isDigitIn base) then readDigits base false cs else ⟨[], false, cs⟩
      else ⟨[], true, c :: cs⟩

/-- The natural number of digits in a base. -/
def digitsValue (base : Nat) (digits : List Char) : Nat :=
  digits.foldl (fun n c => base * n + (digitIn? base c).getD 0) 0

/-- How many digits in a base fit into 64 bits, whatever they are. -/
def exactDigits : (base : Nat) → Nat
  | 2 => 64
  | 8 => 21
  | 10 => 19
  | _ => 16

/-- The double nearest to a whole double with one more digit behind it. -/
def pushDigit (base : Nat) (x : Float) (digit : Nat) : Float :=
  match Binary64.ofFloat x with
  | .finite _ significand exponent =>
      Float.ofNat (base * Binary64.wholePart significand exponent + digit)
  | _ => x

/-- The double for digits in a base.  A long number is rounded at each digit. -/
def integerValue (base : Nat) (digits : List Char) : Float :=
  if digits.length ≤ exactDigits base then Float.ofNat (digitsValue base digits)
  else digits.foldl (fun x c => pushDigit base x ((digitIn? base c).getD 0)) 0.0

/-- Reads an exponent behind its letter. -/
def readExponentOf (cs : List Char) : Digits :=
  let (sign, cs) :=
    match cs with
    | '+' :: cs => (['+'], cs)
    | '-' :: cs => (['-'], cs)
    | cs => ([], cs)
  let digits := readDigits 10 false cs
  ⟨'e' :: (sign ++ digits.text), digits.sound && !digits.text.isEmpty, digits.rest⟩

/-- Reads an exponent, if there is one. -/
def readExponent (cs : List Char) : Digits :=
  match cs with
  | 'e' :: cs => readExponentOf cs
  | 'E' :: cs => readExponentOf cs
  | cs => ⟨[], true, cs⟩

/-- Whether a text may follow a numeral. -/
def endsNumeral (rest : List Char) : Bool :=
  !rest.head?.any fun c => Text.isIdentifierStart c || isDigitIn 10 c

/-- The outcome of reading a numeral: a token and the text behind it, or nothing if the numeral is
not sound. -/
def numeralToken (token : Token) (sound : Bool) (rest : List Char) : Option (Token × List Char) :=
  if !endsNumeral rest then some (.unreadable, rest)
  else if sound then some (token, rest)
  else none

/-- The number that decimal digits stand for. -/
def decimalToken (digits : List Char) : Token :=
  .number (match Decimal.readUnsigned digits with
    | some d => d.toFloat
    | none => Binary64.notANumber)

/-- Reads a fraction without its point, and an exponent. -/
def readFraction (whole : List Char) (sound : Bool) (cs : List Char) :
    Option (Token × List Char) :=
  let fraction := readDigits 10 false cs
  let exponent := readExponent fraction.rest
  numeralToken (decimalToken (whole ++ '.' :: fraction.text ++ exponent.text))
    (sound && fraction.sound && exponent.sound) exponent.rest

/-- Reads digits behind the letter of a base. -/
def readBased (base : Nat) (cs : List Char) : Option (Token × List Char) :=
  let digits := readDigits base false cs
  if digits.text.isEmpty || !digits.sound then some (.unreadable, digits.rest)
  else
    match digits.rest with
    | 'n' :: rest => numeralToken (.bigNumber (digitsValue base digits.text)) true rest
    | rest => numeralToken (.number (integerValue base digits.text)) true rest

/-- Reads an exponent that ends a numeral whatever follows it. -/
def readLastExponent (whole cs : List Char) : Option (Token × List Char) :=
  let exponent := readExponentOf cs
  if exponent.sound then some (decimalToken (whole ++ exponent.text), exponent.rest) else none

/-- Reads the digits behind a zero that has no letter: the number is octal unless a digit is eight
or nine. -/
def readZero (cs : List Char) : Option (Token × List Char) :=
  let digits := cs.takeWhile (isDigitIn 10)
  let rest := cs.dropWhile (isDigitIn 10)
  if digits.all (isDigitIn 8) then
    numeralToken (.number (integerValue 8 digits)) true rest
  else
    match rest with
    | '.' :: rest => readFraction digits true rest
    | 'e' :: rest => readLastExponent digits rest
    | _ => numeralToken (.number (integerValue 10 ('0' :: digits))) true rest

/-- Reads a decimal numeral that starts with a digit. -/
def readDecimal (cs : List Char) : Option (Token × List Char) :=
  let digits := readDigits 10 false cs
  match digits.rest with
  | 'n' :: rest => numeralToken (.bigNumber (digitsValue 10 digits.text)) digits.sound rest
  | '.' :: rest => readFraction digits.text digits.sound rest
  | rest =>
      let exponent := readExponent rest
      let number :=
        if exponent.text.isEmpty then .number (integerValue 10 digits.text)
        else decimalToken (digits.text ++ exponent.text)
      numeralToken number (digits.sound && exponent.sound) exponent.rest

/-- Reads a numeral at the start of a text. -/
def readNumeral : List Char → Option (Token × List Char)
  | '.' :: cs => readFraction [] true cs
  | '0' :: c :: cs =>
      if c = 'x' ∨ c = 'X' then readBased 16 cs
      else if c = 'o' ∨ c = 'O' then readBased 8 cs
      else if c = 'b' ∨ c = 'B' then readBased 2 cs
      else if c = 'e' ∨ c = 'E' then readLastExponent ['0'] cs
      else if isDigitIn 10 c then readZero (c :: cs)
      else if c = '_' then some (.unreadable, c :: cs)
      else readDecimal ('0' :: c :: cs)
  | cs => readDecimal cs

end UiDoc.Script
