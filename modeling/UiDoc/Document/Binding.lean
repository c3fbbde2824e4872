import UiDoc.Json
import UiDoc.Text.Class

/-!
# Bindings

A binding names the place in a scope that a value comes from: by a path, or by a layer, a path in
it, a further path, and a transform.
-/

namespace UiDoc

/-- The layer that a binding starts from. -/
inductive SourceType where
  | data
  | bindings
  | state
  deriving DecidableEq, Repr

/-- The name of a layer. -/
def SourceType.name : SourceType → String
  | data => "data"
  | bindings => "bindings"
  | state => "state"

/-- A binding in parts. -/
structure StructuredBinding where
  source : Option String := none
  sourceType : Option SourceType := none
  path : Option String := none
  transform : Option String := none
  deriving DecidableEq, Repr

/-- A binding. -/
inductive Binding where
  | path (path : String)
  | structured (parts : StructuredBinding)
  deriving DecidableEq, Repr

namespace Binding

/-- Whether a binding names no place. -/
def isEmpty : Binding → Bool
  | .path text => (Text.trim text.toList).isEmpty
  | .structured parts => parts.source.isNone && parts.path.isNone

/-- The text of a binding in diagnostics. -/
def describe : Binding → String
  | .path text => text
  | .structured parts =>
      let layer := (parts.sourceType.map SourceType.name).getD "data"
      ".".intercalate (layer :: (parts.source.toList ++ parts.path.toList))

end Binding

end UiDoc
