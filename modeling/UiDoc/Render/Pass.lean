import UiDoc.Guard
import UiDoc.Journal
import UiDoc.Registry.Resolution

/-!
# Passes

A pass goes through a document once.  It asks the guard about every component, and the registry for
every type, and stops altogether when the guard halts it.
-/

namespace UiDoc

/-- What a pass changes on its way. -/
structure Pass where
  registry : Registry
  guard : Guard
  journal : Journal

/-- What stays the same during a pass. -/
structure Setting where
  files : Files
  /-- Whether undefined bindings are recorded. -/
  devMode : Bool

/-- The pass has been halted. -/
inductive Halt where
  | halt
  deriving DecidableEq, Repr

/-- A part of a pass. -/
abbrev Rendering := ExceptT Halt (StateM Pass)

namespace Rendering

/-- Makes diagnostic entries on the way. -/
def logged {α : Type} (act : Logged α) : Rendering α := do
  let pass ← get
  let (result, journal) := act.run pass.journal
  set { pass with journal }
  return result

/-- Asks the guard about a component at some depth. -/
def enter (depth : Nat) : Rendering Decision := do
  let pass ← get
  let (decision, guard) := pass.guard.enter depth
  set { pass with guard }
  return decision

/-- Asks the registry for a type. -/
def resolve (files : Files) (kind : String) : Rendering (Option Renderable) := do
  let pass ← get
  let (found, registry) := (Registry.resolve files kind).run pass.registry
  set { pass with registry }
  return found

/-- Stops the pass. -/
def halt {α : Type} : Rendering α := do
  logged (Logged.warnOnce .frameBudgetExceeded "tick"
    "render budget exceeded; interpretation halted until the next tick")
  throw .halt

end Rendering

end UiDoc
