import UiDoc.Document.Binding
import UiDoc.Binding.Transform

/-!
# Resolving bindings

A binding that leads nowhere is undefined.  While a document is being developed, that is recorded
with the names that would have led somewhere.
-/

namespace UiDoc

namespace StructuredBinding

/-- Where the path of a binding starts. -/
def base (b : StructuredBinding) (scope : Scope) : Value :=
  match b.sourceType.getD .data, b.source.filter (· ≠ "") with
  | .data, some source => scope.lookup source
  | .data, none => some (.obj scope.merged)
  | .state, source => scope.state.bind (Path.walk · (source.getD ""))
  | .bindings, source => scope.bindings.bind (Path.walk · (source.getD ""))

/-- The value of a binding before its transform. -/
def raw (b : StructuredBinding) (scope : Scope) : Value :=
  (b.base scope).bind (Path.walk · (b.path.getD ""))

/-- The transform of a binding, if it has one that is not blank. -/
def activeTransform (b : StructuredBinding) : Option String :=
  b.transform.filter fun t => Text.trim t.toList ≠ []

/-- The value of a binding. -/
def resolve (b : StructuredBinding) (scope : Scope) : Logged Value :=
  match b.activeTransform with
  | some transform => Transform.apply transform scope (b.raw scope)
  | none => pure (b.raw scope)

end StructuredBinding

namespace Binding

/-- The value of a binding, without a record of its absence. -/
def value (b : Binding) (scope : Scope) : Logged Value :=
  match b with
  | .path text => pure (scope.lookup text)
  | .structured parts => parts.resolve scope

/-- What is recorded of a binding that is undefined. -/
def undefinedMessage (scope : Scope) : String :=
  "binding resolved to undefined; available keys: [" ++ ", ".intercalate scope.rootNames ++ "]"

/-- The value of a binding.  In development, undefined bindings are recorded. -/
def resolve (devMode : Bool) (scope : Scope) (b : Binding) : Logged Value := do
  let v ← b.value scope
  if devMode && v.isNone then
    Logged.record .undefinedBinding b.describe (undefinedMessage scope)
  pure v

end Binding

end UiDoc
