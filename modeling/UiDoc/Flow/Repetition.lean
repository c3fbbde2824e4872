import UiDoc.Document.Component
import UiDoc.Binding.Resolution

/-!
# Loops

A loop has one slot for each item of an array, in order.  A slot knows the variables that its
children see and a key; a key that has been given already is made longer by the index.
-/

namespace UiDoc

/-- One slot of a loop. -/
structure Slot where
  index : Nat
  key : String
  /-- The variables that the children see. -/
  context : Record Json
  /-- Whether the condition of the loop holds for the item. -/
  included : Bool

namespace Loop

/-- The key that an item has of itself, else its index. -/
def itemKey (l : Loop) (item : Json) (index : Nat) : String :=
  let declared : Value := (l.key.filter (· ≠ "")).bind fun path => Path.walk item path
  if Value.nullish declared then Decimal.natText index else Value.shown declared

/-- A key, made longer by the index if it has been given already. -/
def freshKey (seen : List String) (key : String) (index : Nat) : String :=
  if key ∈ seen then key ++ "-" ++ Decimal.natText index else key

/-- The variables of an item. -/
def itemContext (l : Loop) (context : Record Json) (item : Json) (index : Nat) : Record Json :=
  let context := context.insert l.itemVar item
  match l.indexVar.filter (· ≠ "") with
  | some name => context.insert name (.nat index)
  | none => context

/-- Whether an item is shown. -/
def includes (l : Loop) (scope : Scope) : Logged Bool :=
  match l.condition with
  | some condition => Expr.holds scope condition
  | none => pure true

/-- The slots of the items from an index on. -/
def slots (l : Loop) (scope : Scope) :
    (seen : List String) → (index : Nat) → List Json → Logged (List Slot)
  | _, _, [] => pure []
  | seen, index, item :: items => do
      let key := freshKey seen (l.itemKey item index) index
      let context := l.itemContext scope.context item index
      let included ← l.includes (scope.withContext context)
      let rest ← l.slots scope (key :: seen) (index + 1) items
      pure (⟨index, key, context, included⟩ :: rest)

/-- What is recorded of a source that is no array. -/
def sourceMessage (v : Value) : String :=
  "loop source resolved to " ++ Value.kind v ++ "; expanding to nothing"

/-- The slots of a loop; a source that is no array has none. -/
def expand (devMode : Bool) (scope : Scope) (l : Loop) : Logged (List Slot) := do
  match ← l.source.resolve devMode scope with
  | some (.arr items) => l.slots scope [] 0 items
  | v => do
      Logged.warnOnce .loopSourceNotArray l.source.describe (sourceMessage v)
      pure []

end Loop

end UiDoc
