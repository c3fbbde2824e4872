import UiDoc.Proofs.Registry.Memo

/-!
# The definitions of a registry

What can be said of every definition that is registered, or that a module can answer with, can be
said of every definition that a type is found to stand for.
-/

namespace UiDoc

/-- If it is a definition, it has the property. -/
def Renderable.Defines (holds : Component → Prop) : Renderable → Prop
  | .composite _ definition => holds definition
  | _ => True

/-- What a module may answer is no definition without the property. -/
def LoadState.Defines (holds : Component → Prop) : LoadState → Prop
  | .ready renderable => renderable.Defines holds
  | _ => True

namespace Registry

/-- Every definition that the registry knows of has the property. -/
structure Defines (files : Files) (holds : Component → Prop) (r : Registry) : Prop where
  eager : ∀ name renderable, r.eager.find? name = some renderable → renderable.Defines holds
  modules : ∀ path m, r.modules.find? path = some m →
    ∀ earlier call, (m.loader earlier call).Defines holds
  definitions : ∀ name source, r.definitions.find? name = some source →
    ∀ definition, source.parse? files = some definition → holds definition
  memo : ∀ name renderable, r.memo.find? name = some renderable → renderable.Defines holds

variable {files : Files} {holds : Component → Prop} {r s : Registry}

/-- Nothing is asked of the definitions. -/
theorem defines_true (files : Files) (r : Registry) : r.Defines files fun _ => True := by
  have anything : ∀ renderable : Renderable, renderable.Defines fun _ => True := by
    rintro (_ | _ | _) <;> trivial
  refine ⟨fun _ _ _ => anything _, fun _ m _ earlier call => ?_, fun _ _ _ _ _ => trivial,
    fun _ _ _ => anything _⟩
  cases m.loader earlier call with
  | ready renderable => exact anything renderable
  | pending | missing => trivial

theorem defines_builtin (files : Files) (holds : Component → Prop) :
    builtin.Defines files holds := by
  refine ⟨fun name renderable found => ?_, nofun, nofun, nofun⟩
  rcases List.mem_map.1 (Record.mem_of_find? found) with ⟨tag, -, same⟩
  cases same
  trivial

/-- A definition with the property may be registered. -/
theorem Defines.registerDefinition (defines : r.Defines files holds) (name : String)
    {source : DefinitionSource}
    (has : ∀ definition, source.parse? files = some definition → holds definition) :
    (r.registerDefinition name source).Defines files holds where
  eager := defines.eager
  modules := defines.modules
  definitions other listed found := by
    replace found : (r.definitions.insert name source).find? other = some listed := found
    by_cases same : other = name
    · subst same
      rw [Record.find?_insert_self] at found
      cases found
      exact has
    · rw [Record.find?_insert_of_ne _ same] at found
      exact defines.definitions other listed found
  memo other renderable found := by
    replace found : (r.memo.without name).find? other = some renderable := found
    rw [Record.find?_without] at found
    split at found
    · cases found
    · exact defines.memo other renderable found

/-- The same registrations know of the same definitions, if the memo does. -/
theorem Alike.defines (alike : Alike files r s) (defines : r.Defines files holds)
    (memo : ∀ name renderable, s.memo.find? name = some renderable → renderable.Defines holds) :
    s.Defines files holds where
  eager name renderable found := defines.eager name renderable (alike.eager ▸ found)
  modules path m found earlier call := by
    obtain ⟨old, foundOld, same⟩ := alike.exists_module found
    exact same ▸ defines.modules path old foundOld earlier call
  definitions name source found definition parsed := by
    have sources := alike.definitions name
    simp only [found, Option.bind_some, parsed, Option.bind_eq_some_iff] at sources
    rcases sources with ⟨old, foundOld, same⟩
    exact defines.definitions name old foundOld definition same
  memo := memo

theorem Defines.asked (defines : r.Defines files holds) (name : String) :
    (r.asked r.answers name).Defines holds := by
  simp only [Registry.asked]
  cases r.modulePath? name with
  | none => trivial
  | some path =>
      simp only [answers]
      cases found : r.modules.find? path with
      | none => trivial
      | some m => exact defines.modules path m found _ _

theorem Defines.defined (defines : r.Defines files holds) {name : String} {renderable : Renderable}
    (found : r.defined files name = some renderable) : renderable.Defines holds := by
  simp only [Registry.defined, Option.map_eq_some_iff, Option.bind_eq_some_iff] at found
  rcases found with ⟨definition, ⟨source, listed, parsed⟩, rfl⟩
  exact defines.definitions name source listed definition parsed

theorem icon?_defines {name : String} {renderable : Renderable}
    (found : r.icon? name = some renderable) : renderable.Defines holds := by
  simp only [icon?, Option.map_eq_some_iff] at found
  rcases found with ⟨icon, -, rfl⟩
  trivial

/-- What is found has the property, and what is known afterwards has it as well. -/
def Finds (files : Files) (holds : Component → Prop) (act : StateM Registry (Option Renderable))
    (r : Registry) : Prop :=
  (act.run r).2.Defines files holds ∧
    ∀ renderable, (act.run r).1 = some renderable → renderable.Defines holds

theorem Defines.finds_none (defines : r.Defines files holds)
    {act : StateM Registry (Option Renderable)} (nothing : act.run r = (none, r)) :
    Finds files holds act r := by
  simp only [Finds, nothing]
  refine ⟨defines, fun renderable found => ?_⟩
  cases found

theorem Defines.remember (defines : r.Defines files holds) (name : String)
    {found : Option Renderable} (has : ∀ renderable, found = some renderable →
      renderable.Defines holds) : Finds files holds (remember name found) r := by
  refine ⟨?_, by cases found <;> exact has⟩
  cases found with
  | none => exact defines
  | some renderable =>
      refine { defines with memo := fun other remembered listed => ?_ }
      replace listed : (r.memo.insert name renderable).find? other = some remembered := listed
      by_cases same : other = name
      · subst same
        exact has remembered (by simpa using listed)
      · exact defines.memo other remembered (by rwa [Record.find?_insert_of_ne _ same] at listed)

theorem Defines.search (defines : r.Defines files holds) (name : String) :
    Finds files holds (search files name) r := by
  rcases load_run files r name with ⟨called, loads, later, memo, -⟩
  have answer := defines.asked name
  have definesCalled := later.toAlike.defines defines (memo ▸ defines.memo)
  simp only [Finds]
  rw [Registry.search, run_then loads]
  cases state : r.asked r.answers name with
  | ready renderable =>
      rw [state] at answer
      apply definesCalled.remember name
      intro other same
      cases same
      exact answer
  | pending => exact definesCalled.finds_none rfl
  | missing =>
      rcases definition_run files called name with ⟨parsed, reads, laterParsed, memoParsed⟩
      have definesParsed :=
        laterParsed.toAlike.defines definesCalled (memoParsed ▸ definesCalled.memo)
      dsimp only
      rw [run_then reads]
      apply definesParsed.remember name
      intro renderable found
      rcases Option.or_eq_some_iff.1 found with known | ⟨-, icon⟩
      · exact definesCalled.defined known
      · exact icon?_defines icon

theorem Defines.resolveDirect (defines : r.Defines files holds) (name : String) :
    Finds files holds (resolveDirect files name) r := by
  simp only [Finds]
  cases known : (r.eager.find? name).or (r.memo.find? name) with
  | none =>
      rw [run_resolveDirect_none known]
      exact defines.search name
  | some renderable =>
      rw [run_resolveDirect_some known]
      refine ⟨defines, fun other same => ?_⟩
      cases same
      rcases Option.or_eq_some_iff.1 known with fixed | ⟨-, remembered⟩
      · exact defines.eager name renderable fixed
      · exact defines.memo name renderable remembered

/-- A type stands for a definition with the property, if for any. -/
theorem Defines.resolve (defines : r.Defines files holds) (kind : String) :
    Finds files holds (resolve files kind) r := by
  by_cases nowhere : kind = "" ∨ r.chainEnd [] kind = none
  · exact defines.finds_none (run_resolve_none nowhere)
  · rcases not_or.1 nowhere with ⟨named, known⟩
    obtain ⟨last, ends⟩ := Option.ne_none_iff_exists'.1 known
    simp only [Finds]
    rw [run_resolve_some named ends]
    exact defines.resolveDirect last

end Registry

end UiDoc
