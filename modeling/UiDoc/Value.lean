import UiDoc.Json.Printer
import UiDoc.Text.Class
import UiDoc.Text.Units

/-!
# What values mean in conditions and texts

A value may be absent, which is written `none` and called undefined.  This module says which values
count as true, how a value becomes a number or a text, and how two values compare.
-/

namespace UiDoc

/-- A value that may be undefined. -/
abbrev Value := Option Json

namespace Value

/-- Whether a value counts as true: zero, the empty text, `null` and undefined do not. -/
def truthy : Value → Bool
  | none | some .null => false
  | some (.bool b) => b
  | some (.num n) => !(n.toFloat == 0.0) && !n.toFloat.isNaN
  | some (.str s) => !s.isEmpty
  | some (.arr _) | some (.obj _) => true

/-- Whether a value is `null` or undefined. -/
def nullish : Value → Bool
  | none | some .null => true
  | _ => false

/-- The number that a text stands for: zero if it is blank, and no number if it is no numeral. -/
def textToFloat (s : String) : Float :=
  match Text.trim s.toList with
  | [] => 0.0
  | cs => (Decimal.read cs).getD Binary64.notANumber

/-- The number that a defined value stands for.  An array of one item stands for what its item
stands for. -/
def jsonToFloat : Json → Float
  | .null => 0.0
  | .bool b => if b then 1.0 else 0.0
  | .num n => n.toFloat
  | .str s => textToFloat s
  | .arr [] => 0.0
  | .arr [v] => jsonToFloat v
  | .arr (_ :: _ :: _) => Binary64.notANumber
  | .obj _ => Binary64.notANumber
termination_by structural v => v

/-- The number that a value stands for. -/
def toFloat : Value → Float
  | none => Binary64.notANumber
  | some v => jsonToFloat v

/-- The value of a computed number: an integer where that loses nothing, and `null` for what is not
a number. -/
def ofFloat (x : Float) : Json :=
  if Binary64.isInteger x && decide (x.abs < 9007199254740992.0) then .int (Binary64.toInt64 x)
  else if x.isFinite then .num (.float x)
  else .null

/-- The text of a number: never an exponent.  A whole double below `10 ^ 21` is written as a signed
64-bit integer. -/
def numText : Num → List Char
  | .int n => Num.intText n
  | .float x =>
      if Binary64.isInteger x && decide (x.abs < 1e21) then Num.intText (Binary64.toInt64 x)
      else
        match Binary64.ofFloat x with
        | .nan => "NaN".toList
        | .infinite negative => if negative then "-inf".toList else "inf".toList
        | .finite negative significand exponent =>
            (if negative then ['-'] else []) ++
              (Decimal.shortest .up significand exponent).positional

mutual

/-- The text of a defined value. -/
def jsonText : Json → String
  | .null => "null"
  | .bool true => "true"
  | .bool false => "false"
  | .num n => String.ofList (numText n)
  | .str s => s
  | .arr items => String.join (itemTexts items)
  | .obj _ => "[object Object]"
termination_by structural v => v

/-- The texts of items with commas between them; the text of `null` is empty here. -/
def itemTexts : List Json → List String
  | [] => []
  | [.null] => []
  | [v] => [jsonText v]
  | .null :: vs => "," :: itemTexts vs
  | v :: vs => jsonText v :: "," :: itemTexts vs
termination_by structural v => v

end

/-- The text of a value. -/
def text : Value → String
  | none => "undefined"
  | some v => jsonText v

/-- The text of a value where it is shown: nothing for `null` and undefined. -/
def shown (v : Value) : String :=
  if nullish v then "" else text v

/-- The name of the kind of a value. -/
def kind : Value → String
  | none => "undefined"
  | some (.bool _) => "boolean"
  | some (.num _) => "number"
  | some (.str _) => "string"
  | some .null | some (.arr _) | some (.obj _) => "object"

/-- Equality without conversion. -/
def strictEq : Value → Value → Bool
  | none, none => true
  | some (.num a), some (.num b) => a.toFloat == b.toFloat
  | some a, some b => a.same b
  | _, _ => false

/-- Whether a value is a truth value, a number or a text. -/
def scalar : Value → Bool
  | some (.bool _) | some (.num _) | some (.str _) => true
  | _ => false

/-- Whether both values are texts. -/
def bothTexts : Value → Value → Bool
  | some (.str _), some (.str _) => true
  | _, _ => false

/-- Equality with conversion: `null` equals undefined, and truth values, numbers and texts of
different kinds are compared as numbers. -/
def looseEq (left right : Value) : Bool :=
  if nullish left || nullish right then nullish left && nullish right
  else if scalar left && scalar right && !bothTexts left right then
    let a := toFloat left
    !a.isNaN && a == toFloat right
  else strictEq left right

/-- The order of two texts by code point. -/
def compareText (a b : String) : Ordering :=
  if a < b then .lt else if a = b then .eq else .gt

/-- How two values compare: texts as texts, everything else as numbers. -/
def compare : Value → Value → Option Ordering
  | some (.str a), some (.str b) => some (compareText a b)
  | left, right => Binary64.compare (toFloat left) (toFloat right)

/-- The length of a text in UTF-16 units, or of an array. -/
def length? : Json → Option Nat
  | .arr items => some items.length
  | .str s => some (Text.unitLength s.toList)
  | _ => none

end Value

end UiDoc
