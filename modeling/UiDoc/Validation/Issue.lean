import UiDoc.Json
import UiDoc.Validation.Rule

/-!
# Issues and reports

An issue is a place in a document where a rule is broken.  A report lists them in the order of the
document, errors apart from warnings.
-/

namespace UiDoc

/-- One step on the way to a place in a document. -/
inductive PlaceStep where
  | field (name : String)
  | item (index : Nat)
  deriving DecidableEq, Repr

/-- The text of a step. -/
def PlaceStep.text : PlaceStep → String
  | field name => "." ++ name
  | item index => "[" ++ Decimal.natText index ++ "]"

/-- A place in a document: the steps to it from the root. -/
structure Place where
  steps : List PlaceStep := []
  deriving DecidableEq, Repr

namespace Place

/-- The root of a document. -/
def root : Place := {}

/-- A field of a place. -/
def field (place : Place) (name : String) : Place :=
  ⟨place.steps ++ [.field name]⟩

/-- An item of a place. -/
def item (place : Place) (index : Nat) : Place :=
  ⟨place.steps ++ [.item index]⟩

/-- The text of a place. -/
def text (place : Place) : String :=
  "$" ++ String.join (place.steps.map PlaceStep.text)

end Place

/-- A rule that is broken at a place. -/
structure Issue where
  rule : Rule
  place : Place
  message : String
  deriving DecidableEq, Repr

namespace Issue

/-- The JSON form of an issue, from its parts. -/
def form (code path message : String) : Json :=
  .obj [("path", .str path), ("message", .str message), ("code", .str code),
    ("guarantee", .str (Rule.guaranteeOf code))]

/-- The JSON form of an issue. -/
def toJson (i : Issue) : Json :=
  form i.rule.code i.place.text i.message

end Issue

/-- The issues of a document. -/
structure Report where
  errors : List Issue
  warnings : List Issue
  deriving DecidableEq, Repr

namespace Report

/-- The report of issues. -/
def ofIssues (issues : List Issue) : Report where
  errors := issues.filter fun i => i.rule.isError
  warnings := issues.filter fun i => !i.rule.isError

/-- Whether a document has no errors. -/
def valid (r : Report) : Bool :=
  r.errors.isEmpty

/-- The JSON form of a report. -/
def toJson (r : Report) : Json :=
  .obj [("valid", .bool r.valid), ("errors", .arr (r.errors.map Issue.toJson)),
    ("warnings", .arr (r.warnings.map Issue.toJson))]

end Report

end UiDoc
