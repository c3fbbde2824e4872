import UiDoc.Decimal
import UiDoc.Script.Names
import UiDoc.Script.Token

/-!
# Names of fields in a script

A field of an object can be named by a word, a text or a number; the name of a number is its
shortest decimal text.
-/

namespace UiDoc.Script

/-- The decimal text of a number that is the name of a field. -/
def numberName (x : Float) : String :=
  match Binary64.ofFloat x with
  | .nan => "NaN"
  | .infinite negative => if negative then "-Infinity" else "Infinity"
  | .finite negative significand exponent =>
      let d := Decimal.shortest .toEven significand exponent
      let e := d.scientificExponent
      let digits := if -7 < e ∧ e < 21 then d.positional else d.scientific
      String.ofList ((if negative then ['-'] else []) ++ digits)

/-- How a field is named. -/
inductive FieldName where
  /-- By a word, which may stand for its own value. -/
  | word (name : String)
  | literal (name : String)
  /-- By the value of an expression. -/
  | computed (key : Tree)
  /-- By a name behind `#`. -/
  | hidden (name : String)

/-- The name of a field that is a single token. -/
def FieldName.ofToken? : Token → Option FieldName
  | .name name _ => some (.word name)
  | .text s => some (.literal s)
  | .number x => some (.literal (numberName x))
  | .bigNumber n => some (.literal (Decimal.natText n))
  | .hidden name => some (.hidden name)
  | _ => none

/-- Whether a token can start the name of a field. -/
def startsFieldName : Token → Bool
  | .name _ _ | .text _ | .number _ | .bigNumber _ | .hidden _ => true
  | .sign s => s = "["
  | _ => false

/-- What the name of a field mentions. -/
def FieldName.mentions : FieldName → Mentions
  | .computed key => key.mentions
  | .word _ | .literal _ | .hidden _ => {}

/-- The name of a field, unless it is computed or hidden. -/
def FieldName.plain? : FieldName → Option String
  | .word name | .literal name => some name
  | .computed _ | .hidden _ => none

end UiDoc.Script
