import UiDoc.Script.Bounds

/-!
# The state of an evaluation

An evaluation keeps the parameters of the functions that are running, and counts its steps.
-/

namespace UiDoc.Script

/-- What an evaluation keeps. -/
structure Machine where
  /-- The parameters of running functions, the latest first. -/
  locals : List (String × Value) := []
  steps : Nat := 0

/-- A computation that counts steps and may be abandoned. -/
abbrev Run := ExceptT Fault (StateM Machine)

/-- A function that is given to a method. -/
abbrev Callback := List Value → Run Value

/-- An argument of a call. -/
inductive Arg where
  | value (v : Value)
  | callback (f : Callback)

namespace Arg

/-- The value of an argument; a function has none. -/
def toValue : Arg → Value
  | value v => v
  | callback _ => none

end Arg

namespace Run

/-- Takes steps. -/
def charge (count : Nat) : Run Unit := do
  let machine ← get
  set { machine with steps := machine.steps + count }
  if maxSteps < machine.steps + count then throw .overBudget

/-- The outcome of a pure computation. -/
def ofExcept {α : Type} : Except Fault α → Run α
  | .ok x => pure x
  | .error fault => throw fault

/-- A built value: takes a step for each of its parts, and stays within the bounds. -/
def built (v : Value) : Run Value := do
  match v with
  | some (.arr items) => charge items.length
  | some (.obj fields) => charge fields.length
  | _ => pure ()
  ofExcept (bounded v)

/-- Gives names to values, the latest first; a name without a value is undefined. -/
def bind : List String → List Value → List (String × Value) → List (String × Value)
  | [], _, locals => locals
  | name :: names, values, locals => bind names values.tail ((name, values.head?.join) :: locals)

/-- Runs a body with parameters, which are gone afterwards, whatever the outcome. -/
def withLocals (parameters : List String) (body : Run Value) (values : List Value) : Run Value :=
  fun machine =>
    let inner := { machine with locals := bind parameters values machine.locals }
    let (outcome, after) := body inner
    (outcome, { after with
      locals := after.locals.drop (after.locals.length - machine.locals.length) })

end Run

end UiDoc.Script
