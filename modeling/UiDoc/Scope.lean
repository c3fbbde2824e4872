import UiDoc.Value

/-!
# Scopes

An expression sees several layers of values.  The data of the caller and the variables bound on the
way down the document together form the root, where a variable hides a data field of its name.
State and bindings are further layers, each reached through its own name, and only if it is
supplied.
-/

namespace UiDoc

/-- The layers of values that an expression sees. -/
structure Scope where
  /-- What the caller supplies. -/
  data : Json
  /-- The variables bound by loops, composites and transforms. -/
  context : Record Json := []
  /-- The state layer, if one is supplied. -/
  state : Option Json := none
  /-- The bindings layer, if one is supplied. -/
  bindings : Option Json := none

namespace Scope

/-- The same layers with other variables. -/
def withContext (scope : Scope) (context : Record Json) : Scope :=
  { scope with context }

/-- Binds one more variable. -/
def bind (scope : Scope) (name : String) (value : Json) : Scope :=
  scope.withContext (scope.context.insert name value)

/-- The value of a name at the root: a variable, else a data field. -/
def root? (scope : Scope) (name : String) : Value :=
  match scope.context.find? name with
  | some value => some value
  | none => scope.data.get? name

/-- Whether a name has a value at the root. -/
def hasRoot (scope : Scope) (name : String) : Bool :=
  (scope.root? name).isSome

/-- The names at the root, in the order of code points. -/
def rootNames (scope : Scope) : List String :=
  let shown := (Record.names scope.data.fields).filter fun name => !scope.context.has name
  (scope.context.names ++ shown).mergeSort fun a b => decide (a ≤ b)

/-- The root as one record: the data fields, overlaid with the variables. -/
def merged (scope : Scope) : Record Json :=
  Record.extend scope.data.fields scope.context

end Scope

end UiDoc
