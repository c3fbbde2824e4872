import UiDoc.Template
import UiDoc.Expr.Evaluation

/-!
# Filling in templates

Placeholders are filled in from left to right with the shown texts of their values; what is filled
in is not looked at again.  A template that is one placeholder has the value itself.
-/

namespace UiDoc.Template

/-- The text of a part. -/
def Piece.fill (scope : Scope) : Piece → Logged (List Char)
  | .char c => pure [c]
  | .hole expression => do
      let value ← Expr.evalOrUndefined scope expression
      pure (Value.shown value).toList

/-- The text of parts. -/
def fillPieces (scope : Scope) : List Piece → Logged (List Char)
  | [] => pure []
  | piece :: rest => do
      let front ← piece.fill scope
      let back ← fillPieces scope rest
      pure (front ++ back)

/-- The template with all placeholders filled in. -/
def interpolate (scope : Scope) (template : String) : Logged String := do
  let cs ← fillPieces scope (pieces template.toList)
  pure (String.ofList cs)

/-- The value that a text stands for. -/
def valueOfText (scope : Scope) (text : String) : Logged Json :=
  match whole? text with
  | some expression => do
      let value ← Expr.evalOrUndefined scope expression
      pure (value.getD .null)
  | none => do
      let filled ← interpolate scope text
      pure (.str filled)

/-- The value that a declared value stands for; only texts are templates. -/
def valueOf (scope : Scope) : Json → Logged Json
  | .str text => valueOfText scope text
  | value => pure value

/-- The values that declared fields stand for. -/
def recordOf (scope : Scope) : Record Json → Logged (Record Json)
  | [] => pure []
  | (name, declared) :: rest => do
      let value ← valueOf scope declared
      let rest ← recordOf scope rest
      pure ((name, value) :: rest)

end UiDoc.Template
