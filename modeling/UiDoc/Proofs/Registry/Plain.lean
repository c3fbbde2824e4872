import UiDoc.Proofs.Record
import UiDoc.Registry.Resolution

/-!
# The plain chain of tables

The tables of a registry determine what a type stands for, given what each module answers.  The
plain chain reads them in their order and writes nothing: it has no memo, and a definition is parsed
from its source each time.

Two registries are alike if they have the same registrations.  They may still have found out
different things, which the plain chain does not see.
-/

namespace UiDoc

namespace DefinitionSource

@[simp] theorem parse?_settled (files : Files) (found : Option Component) :
    (settled found).parse? files = found := by
  cases found <;> rfl

end DefinitionSource

namespace Registry

/-- What the module at a path answers a call. -/
abbrev Answers := (path : String) → LoadCall → LoadState

/-- What each module would answer at this moment. -/
def answers (r : Registry) : Answers := fun path call =>
  match r.modules.find? path with
  | some m => m.loader m.calls call
  | none => .missing

/-- The call for a type. -/
def callFor (r : Registry) (name : String) : LoadCall :=
  ⟨name, r.exportedName name⟩

/-- The path of the module for a type. -/
def modulePath? (r : Registry) (name : String) : Option String :=
  let declared := ((r.entry? name).bind RegistryEntry.loadPath).filter r.modules.names.contains
  declared.or (r.modules.names.find? fun path =>
    (FilePath.stem? path).any fun stem => stem = r.exportedName name ∨ stem = name)

/-- What the module for a type answers. -/
def asked (answers : Answers) (r : Registry) (name : String) : LoadState :=
  match r.modulePath? name with
  | some path => answers path (r.callFor name)
  | none => .missing

/-- The definition of a type, parsed from its source. -/
def defined (files : Files) (r : Registry) (name : String) : Option Renderable :=
  ((r.definitions.find? name).bind fun source => source.parse? files).map (.composite name)

/-- What a type stands for once its module has answered. -/
def behind (files : Files) (r : Registry) (name : String) : LoadState → Option Renderable
  | .ready renderable => some renderable
  | .pending => none
  | .missing => (r.defined files name).or (r.icon? name)

/-- What a type stands for by the tables alone. -/
def plain (files : Files) (answers : Answers) (r : Registry) (name : String) : Option Renderable :=
  if name = "" then none
  else
    (r.chainEnd [] name).bind fun last =>
      (r.eager.find? last).or (r.behind files last (r.asked answers last))

/-- The module for a type is the one at its path. -/
theorem moduleFor?_eq (r : Registry) (name : String) :
    r.moduleFor? name =
      (r.modulePath? name).bind fun path => (r.modules.find? path).map fun m => (path, m) := by
  have byName := Record.find?_name (r := r.modules) fun path =>
    (FilePath.stem? path).any fun stem => stem = r.exportedName name ∨ stem = name
  simp only [moduleFor?, modulePath?, byName]
  cases declared : (r.entry? name).bind RegistryEntry.loadPath with
  | none => rfl
  | some path =>
      cases present : r.modules.find? path with
      | none =>
          have absent : path ∉ r.modules.names := Record.find?_eq_none.1 present
          simp [Option.filter_some, present, absent]
      | some m =>
          have listed : path ∈ r.modules.names := Record.mem_names_of_find? present
          simp [Option.filter_some, present, listed]

/-- A path that is chosen for a type has a module. -/
theorem find?_modulePath {r : Registry} {name path : String}
    (chosen : r.modulePath? name = some path) : ∃ m, r.modules.find? path = some m := by
  have listed : path ∈ r.modules.names := by
    simp only [modulePath?, Option.or_eq_some_iff] at chosen
    rcases chosen with declared | ⟨-, byName⟩
    · simpa using (Option.filter_eq_some_iff.1 declared).2
    · exact List.mem_of_find?_eq_some byName
  cases present : r.modules.find? path with
  | none => exact absurd listed (Record.find?_eq_none.1 present)
  | some m => exact ⟨m, rfl⟩

/-- The chain of wrappers depends on the wrapper of each type alone. -/
theorem chainEnd_congr {r s : Registry} (wrappers : r.wrapper? = s.wrapper?) (visited : List String)
    (name : String) : r.chainEnd visited name = s.chainEnd visited name := by
  fun_induction r.chainEnd visited name with
  | case1 visited name circle =>
      rw [chainEnd.eq_def s]
      rw [dif_pos circle]
  | case2 visited name new wrapper found ih =>
      rw [chainEnd.eq_def s]
      rw [dif_neg new]
      split
      · rename_i other known
        rw [← wrappers, found] at known
        cases known
        exact ih
      · rename_i unknown
        simp [← wrappers, found] at unknown
  | case3 visited name new found =>
      rw [chainEnd.eq_def s]
      rw [dif_neg new]
      split
      · rename_i other known
        simp [← wrappers, found] at known
      · rfl

/-- Two registries with the same registrations. -/
structure Alike (files : Files) (r s : Registry) : Prop where
  entries : r.entries = s.entries
  eager : r.eager = s.eager
  icons : r.icons = s.icons
  paths : r.modules.names = s.modules.names
  loaders : ∀ path,
    (r.modules.find? path).map Module.loader = (s.modules.find? path).map Module.loader
  definitions : ∀ name,
    ((r.definitions.find? name).bind fun source => source.parse? files) =
      (s.definitions.find? name).bind fun source => source.parse? files

namespace Alike

variable {files : Files} {r s t : Registry}

theorem refl (files : Files) (r : Registry) : Alike files r r :=
  ⟨rfl, rfl, rfl, rfl, fun _ => rfl, fun _ => rfl⟩

theorem symm (alike : Alike files r s) : Alike files s r :=
  ⟨alike.entries.symm, alike.eager.symm, alike.icons.symm, alike.paths.symm,
    fun path => (alike.loaders path).symm, fun name => (alike.definitions name).symm⟩

theorem trans (first : Alike files r s) (second : Alike files s t) : Alike files r t :=
  ⟨first.entries.trans second.entries, first.eager.trans second.eager,
    first.icons.trans second.icons, first.paths.trans second.paths,
    fun path => (first.loaders path).trans (second.loaders path),
    fun name => (first.definitions name).trans (second.definitions name)⟩

theorem entry? (alike : Alike files r s) (name : String) : r.entry? name = s.entry? name := by
  simp only [Registry.entry?, alike.entries]

theorem wrapper? (alike : Alike files r s) : r.wrapper? = s.wrapper? := by
  funext name
  simp only [Registry.wrapper?, alike.entry?]

theorem exportedName (alike : Alike files r s) (name : String) :
    r.exportedName name = s.exportedName name := by
  simp only [Registry.exportedName, alike.entry?]

theorem callFor (alike : Alike files r s) (name : String) : r.callFor name = s.callFor name := by
  simp only [Registry.callFor, alike.exportedName]

theorem modulePath? (alike : Alike files r s) (name : String) :
    r.modulePath? name = s.modulePath? name := by
  rw [Registry.modulePath?, Registry.modulePath?, alike.entry?, alike.exportedName, alike.paths]

theorem asked (alike : Alike files r s) (answers : Answers) (name : String) :
    r.asked answers name = s.asked answers name := by
  simp only [Registry.asked, alike.modulePath?, alike.callFor]

theorem defined (alike : Alike files r s) (name : String) :
    r.defined files name = s.defined files name := by
  simp only [Registry.defined, alike.definitions]

theorem behind (alike : Alike files r s) (name : String) (state : LoadState) :
    r.behind files name state = s.behind files name state := by
  cases state <;> simp only [Registry.behind, alike.defined, icon?, alike.icons]

/-- The plain chain sees the registrations and nothing else. -/
theorem plain (alike : Alike files r s) (answers : Answers) (name : String) :
    r.plain files answers name = s.plain files answers name := by
  simp only [Registry.plain, chainEnd_congr alike.wrapper?, alike.eager, alike.behind, alike.asked]

end Alike

end Registry

end UiDoc
