import UiDoc.Script.Parser
import UiDoc.Script.Names
import UiDoc.Script.Evaluation

/-!
# Scripts

A script is compiled from its text.  It is evaluated only if the scope has a value for each of its
free names.
-/

namespace UiDoc.Script

/-- A compiled script. -/
structure Program where
  /-- What the script means. -/
  root : Term
  /-- The names that the scope has to provide. -/
  free : List String

namespace Program

/-- Compiles a script; `none` if it is not one. -/
def compile? (source : String) : Option Program := do
  let tree ← Tree.parse? source
  let root ← Term.ofTree? tree
  return ⟨root, tree.free⟩

/-- Whether a script is a function. -/
def isFunction (program : Program) : Bool :=
  match program.root with
  | .function _ _ => true
  | _ => false

/-- Whether a scope provides a name. -/
def isKnown (scope : Scope) (name : String) : Bool :=
  scope.hasRoot name || name == "data" ||
    (name == "state" && scope.state.isSome) || (name == "bindings" && scope.bindings.isSome)

/-- The computation of a script: a function is called with arguments. -/
def body (scope : Scope) (args : List Value) : Term → Run Value
  | .function parameters body => Run.withLocals parameters (Script.eval scope body) args
  | term => Script.eval scope term

/-- Runs a script; `none` if a name is unknown or the script is abandoned. -/
def run? (program : Program) (scope : Scope) (args : List Value) : Option Value :=
  if program.free.all (isKnown scope) then
    match (body scope args program.root).run.run {} with
    | (.ok v, _) => some v
    | (.error _, _) => none
  else none

end Program

/-- Compiles and runs a script. -/
def evaluate? (source : String) (scope : Scope) (args : List Value) : Option Value :=
  (Program.compile? source).bind fun program => program.run? scope args

end UiDoc.Script
