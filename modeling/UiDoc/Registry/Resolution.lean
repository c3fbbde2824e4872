import UiDoc.Document.Decoder
import UiDoc.Registry
import UiDoc.Text.Search

/-!
# Finding out what a type stands for

First the wrapper of a type stands in for it, and the wrapper of that, and so on; a circle stands
for nothing.  Then the tables are asked in a fixed order: fixed meanings, modules, definitions and
icons.  A module that is still loading hides the tables behind it, but that is not remembered.
-/

namespace UiDoc

namespace DefinitionSource

/-- The definition of a source, if it can be read and parsed. -/
def parse? (files : Files) : DefinitionSource → Option Component
  | text source => (Component.ofText source).toOption
  | file path => (files.textAt path).bind fun source => (Component.ofText source).toOption
  | parsed definition => some definition
  | broken => none

/-- What is kept of a source once it has been parsed. -/
def settled : Option Component → DefinitionSource
  | some definition => parsed definition
  | none => broken

/-- Whether a source has not been parsed yet. -/
def isUnparsed : DefinitionSource → Bool
  | text _ | file _ => true
  | parsed _ | broken => false

end DefinitionSource

namespace Registry

/-- The type that stands in for a type. -/
def wrapper? (r : Registry) (name : String) : Option String :=
  (r.entry? name).bind RegistryEntry.wrapper

/-- The entries of types that have not been visited. -/
def unvisited (r : Registry) (visited : List String) : Record RegistryEntry :=
  r.entries.filter fun field => field.1 ∉ visited

/-- A type with an entry is no longer unvisited once it has been visited. -/
theorem unvisited_length_lt {r : Registry} {visited : List String} {name wrapper : String}
    (new : name ∉ visited) (found : r.wrapper? name = some wrapper) :
    (r.unvisited (name :: visited)).length < (r.unvisited visited).length := by
  obtain ⟨entry, lookup, -⟩ := Option.bind_eq_some_iff.1 found
  have member : (name, entry) ∈ r.entries := by
    unfold entry? Record.find? at lookup
    generalize r.entries = entries at lookup
    induction entries with
    | nil => simp at lookup
    | cons field rest ih =>
        obtain ⟨key, value⟩ := field
        by_cases same : name = key
        · subst same
          simp_all
        · have differs : (name == key) = false := by simpa using same
          rw [List.lookup_cons, differs] at lookup
          exact List.mem_cons_of_mem _ (ih lookup)
  have fewer : r.unvisited (name :: visited) =
      (r.unvisited visited).filter fun field => field.1 ≠ name := by
    simp only [unvisited, List.filter_filter]
    congr 1
    funext field
    by_cases same : field.1 = name <;> simp [same]
  rw [fewer]
  refine List.length_filter_lt_length_iff_exists.2 ⟨(name, entry), ?_, by simp⟩
  simp [unvisited, member, new]

/-- The last type in the chain of wrappers of a type; none if the chain is a circle. -/
def chainEnd (r : Registry) (visited : List String) (name : String) : Option String :=
  if _new : name ∈ visited then none
  else
    match _found : r.wrapper? name with
    | some wrapper => r.chainEnd (name :: visited) wrapper
    | none => some name
termination_by (r.unvisited visited).length
decreasing_by exact unvisited_length_lt _new _found

/-- The name under which a module exports a type. -/
def exportedName (r : Registry) (name : String) : String :=
  ((r.entry? name).map RegistryEntry.exported).getD name

/-- The module for a type: the one at the declared path, else the first whose file has the name of
the export or of the type. -/
def moduleFor? (r : Registry) (name : String) : Option (String × Module) :=
  let declared := ((r.entry? name).bind RegistryEntry.loadPath).bind fun path =>
    (r.modules.find? path).map fun m => (path, m)
  let byName := List.find? (fun field =>
    (FilePath.stem? field.1).any fun stem => stem = r.exportedName name ∨ stem = name) r.modules
  declared.or byName

/-- Calls the module for a type. -/
def load (name : String) : StateM Registry LoadState := do
  let r ← get
  match r.moduleFor? name with
  | none => pure .missing
  | some (path, m) =>
      let call : LoadCall := ⟨name, r.exportedName name⟩
      set { r with
        modules := r.modules.insert path { m with calls := m.calls ++ [call] }
        loads := r.loads ++ [(path, call)] }
      pure (m.loader m.calls call)

/-- The definition of a type, which is parsed when it is first needed. -/
def definition (files : Files) (name : String) : StateM Registry (Option Renderable) := do
  let r ← get
  match r.definitions.find? name with
  | none => pure none
  | some source =>
      let parsed := source.parse? files
      set { r with definitions := r.definitions.insert name (.settled parsed) }
      pure (parsed.map (.composite name))

/-- Whether two texts are equal but for the case of ASCII letters. -/
def sameLetters (a b : String) : Bool :=
  a.toList.map Decimal.asciiLower == b.toList.map Decimal.asciiLower

/-- A type without `Icon` at its end. -/
def withoutIcon? (name : String) : Option String :=
  ((Text.dropLeading? "Icon".toList.reverse name.toList.reverse).filter (· ≠ [])).map fun cs =>
    String.ofList cs.reverse

/-- The icon of a type. -/
def icon? (r : Registry) (name : String) : Option Renderable :=
  (r.icons.find? fun icon =>
    sameLetters icon name || (withoutIcon? name).any (sameLetters icon)).map .icon

/-- What is remembered of a type. -/
def remember (name : String) (found : Option Renderable) : StateM Registry (Option Renderable) := do
  match found with
  | some renderable => modify fun r => { r with memo := r.memo.insert name renderable }
  | none => pure ()
  pure found

/-- Asks the tables that are remembered. -/
def search (files : Files) (name : String) : StateM Registry (Option Renderable) := do
  match ← load name with
  | .ready renderable => remember name (some renderable)
  | .pending => pure none
  | .missing => do
      let defined ← definition files name
      let r ← get
      remember name (defined.or (r.icon? name))

/-- What a type without a wrapper stands for. -/
def resolveDirect (files : Files) (name : String) : StateM Registry (Option Renderable) := do
  let r ← get
  match (r.eager.find? name).or (r.memo.find? name) with
  | some renderable => pure (some renderable)
  | none => search files name

/-- What a type stands for. -/
def resolve (files : Files) (name : String) : StateM Registry (Option Renderable) := do
  if name = "" then pure none
  else
    match (← get).chainEnd [] name with
    | some last => resolveDirect files last
    | none => pure none

/-- Whether a type stands for anything. -/
def has (files : Files) (name : String) : StateM Registry Bool := do
  return (← resolve files name).isSome

/-- The registry with every definition parsed. -/
def withParsed (files : Files) (r : Registry) : Registry :=
  { r with definitions := r.definitions.map fun (name, source) =>
      (name, .settled (source.parse? files)) }

/-- How many definitions have not been parsed yet and can be. -/
def parsable (files : Files) (r : Registry) : Nat :=
  r.definitions.countP fun (_, source) => source.isUnparsed && (source.parse? files).isSome

/-- Parses all definitions that have not been parsed yet, and says how many could be. -/
def preload (files : Files) : StateM Registry Nat := do
  let r ← get
  set (r.withParsed files)
  pure (r.parsable files)

end Registry

end UiDoc
