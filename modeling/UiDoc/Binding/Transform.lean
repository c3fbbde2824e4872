import UiDoc.Expr.Evaluation
import UiDoc.Script.FunctionForm

/-!
# Transforms

A transform changes the value of a binding.  What looks like a function is run as a script, with the
value and the root of the scope as arguments.  Anything else is an expression over the scope, where
the variable `value` is the value, or else a script over that scope.  A transform that is neither
leaves the value as it is.
-/

namespace UiDoc

namespace Transform

/-- The scope in which a transform that is no function sees the value. -/
def valueScope (scope : Scope) (value : Value) : Scope :=
  scope.bind "value" (value.getD .null)

/-- The changed value; `none` if the transform cannot be applied. -/
def result? (transform : String) (scope : Scope) (value : Value) : Logged (Option Value) :=
  if Script.startsLikeFunction transform then
    Logged.script transform scope [value, some (.obj scope.merged)]
  else
    match Expr.eval? (valueScope scope value) transform with
    | some result => pure (some result)
    | none => Logged.script transform (valueScope scope value) []

/-- The changed value; a transform that cannot be applied is warned about. -/
def apply (transform : String) (scope : Scope) (value : Value) : Logged Value := do
  match ← result? transform scope value with
  | some result => pure result
  | none => do
      Logged.warnOnce .unsupportedExpression transform
        "transform is outside the supported grammar; using the untransformed value"
      pure value

end Transform

end UiDoc
