import UiDoc.Document.Event
import UiDoc.Expr.Evaluation

/-!
# Firing handlers
-/

namespace UiDoc

/-- Whether a handler runs: always, unless it has a condition that is not blank and does not
hold. -/
def EventHandler.fires (h : EventHandler) (scope : Scope) : Logged Bool :=
  match h.condition.filter fun c => Text.trim c.toList ≠ [] with
  | some condition => Expr.holds scope condition
  | none => pure true

end UiDoc
