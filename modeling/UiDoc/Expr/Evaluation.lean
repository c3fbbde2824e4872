import UiDoc.Expr.Parser
import UiDoc.Journal

/-!
# Evaluating the text of an expression

A text that is no expression is warned about, and then a condition counts as true, and a value as
undefined or as its fallback.
-/

namespace UiDoc.Expr

/-- The value of a text in a scope; `none` if the text is no expression. -/
def eval? (scope : Scope) (text : String) : Option Value :=
  (parse? text).map fun e => e.eval scope

/-- Whether a text is an expression. -/
def isSupported (text : String) : Bool :=
  (parse? text).isSome

/-- Warns that a text is no expression. -/
def warnUnsupported (text consequence : String) : Logged Unit :=
  Logged.warnOnce .unsupportedExpression text consequence

/-- Whether a condition holds; what is no expression holds. -/
def holds (scope : Scope) (condition : String) : Logged Bool :=
  match eval? scope condition with
  | some value => pure (Value.truthy value)
  | none => do
      warnUnsupported condition "condition is outside the supported grammar; treating it as true"
      pure true

/-- The value of a text, or `fallback` if it has none. -/
def evalOr (scope : Scope) (text : String) (fallback : Json) : Logged Json :=
  match eval? scope text with
  | some value => pure (value.getD fallback)
  | none => do
      warnUnsupported text "expression is outside the supported grammar; using the fallback value"
      pure fallback

/-- The value of a text; what is no expression is undefined. -/
def evalOrUndefined (scope : Scope) (text : String) : Logged Value :=
  match eval? scope text with
  | some value => pure value
  | none => do
      warnUnsupported text "expression is outside the supported grammar; reading it as undefined"
      pure none

end UiDoc.Expr
