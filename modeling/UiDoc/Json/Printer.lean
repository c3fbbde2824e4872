import UiDoc.Json

/-!
# Writing JSON

The compact form: no blanks, fields in order, control characters and the two characters that need
it escaped, everything else as it is.  A double is written with the fewest digits that read back as
the same double, positionally as long as its decimal exponent lies between `-5` and `15`.
-/

namespace UiDoc

namespace Num

/-- The least and the greatest decimal exponent of a double that is written positionally. -/
def positionalRange : Int × Int := (-5, 15)

/-- The digits of a positive double with at least one place after the point. -/
def floatDigits (d : Decimal) : List Char :=
  let e := d.scientificExponent
  if positionalRange.1 ≤ e ∧ e ≤ positionalRange.2 then
    if d.exponent < 0 then d.positional else d.positional ++ ['.', '0']
  else d.scientific

/-- The text of an integer. -/
def intText : Int → List Char
  | .ofNat n => Nat.toDigits 10 n
  | .negSucc n => '-' :: Nat.toDigits 10 (n + 1)

/-- The text of a number.  A double that is not a number has no text of its own. -/
def print : Num → List Char
  | int n => intText n
  | float x =>
      match Binary64.ofFloat x with
      | .finite negative significand exponent =>
          (if negative then ['-'] else []) ++
            floatDigits (Decimal.shortest .toEven significand exponent)
      | _ => "null".toList

end Num

namespace Json

/-- The lower-case hexadecimal digit of a number below sixteen. -/
def hexDigit (n : Nat) : Char :=
  if n < 10 then Char.ofNat ('0'.toNat + n) else Char.ofNat ('a'.toNat + (n - 10))

/-- A character inside a quoted text. -/
def escape (c : Char) : List Char :=
  if c = '"' then ['\\', '"']
  else if c = '\\' then ['\\', '\\']
  else if 0x20 ≤ c.toNat then [c]
  else if c = '\n' then ['\\', 'n']
  else if c = '\r' then ['\\', 'r']
  else if c = '\t' then ['\\', 't']
  else if c.toNat = 0x08 then ['\\', 'b']
  else if c.toNat = 0x0C then ['\\', 'f']
  else ['\\', 'u', '0', '0', hexDigit (c.toNat / 16), hexDigit (c.toNat % 16)]

/-- A text between quotes. -/
def quote (s : String) : String :=
  String.ofList ('"' :: s.toList.foldr (fun c rest => escape c ++ rest) ['"'])

mutual

/-- The pieces of the compact text of a value, in front of `rest`. -/
def pieces : Json → List String → List String
  | .null, rest => "null" :: rest
  | .bool true, rest => "true" :: rest
  | .bool false, rest => "false" :: rest
  | .num n, rest => String.ofList n.print :: rest
  | .str s, rest => quote s :: rest
  | .arr items, rest => "[" :: itemPieces items ("]" :: rest)
  | .obj fields, rest => "\x7b" :: fieldPieces fields ("\x7d" :: rest)
termination_by structural v => v

/-- The items, with commas between them. -/
def itemPieces : List Json → List String → List String
  | [], rest => rest
  | [v], rest => pieces v rest
  | v :: vs, rest => pieces v ("," :: itemPieces vs rest)
termination_by structural vs => vs

/-- The fields, with commas between them. -/
def fieldPieces : List (String × Json) → List String → List String
  | [], rest => rest
  | [(name, v)], rest => quote name :: ":" :: pieces v rest
  | (name, v) :: fields, rest => quote name :: ":" :: pieces v ("," :: fieldPieces fields rest)
termination_by structural vs => vs

end

/-- The compact text of a value. -/
def print (v : Json) : String :=
  String.join (pieces v [])

end Json

end UiDoc
