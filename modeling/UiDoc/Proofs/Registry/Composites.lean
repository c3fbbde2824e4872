import UiDoc.Proofs.Registry.Memo

/-!
# The definitions that a registry can come to

Types are asked for one after the other, and a module may answer differently each time.  A registry
can resolve a definition if some type stands for it at some time.
-/

namespace UiDoc.Registry

/-- The registry after types have been asked for. -/
def asking (files : Files) (kinds : List String) (r : Registry) : Registry :=
  kinds.foldl (fun r kind => ((resolve files kind).run r).2) r

/-- At some time, some type stands for the definition of this name. -/
def CanResolve (files : Files) (r : Registry) (name : String) (definition : Component) : Prop :=
  ∃ kinds kind,
    ((resolve files kind).run (r.asking files kinds)).1 = some (.composite name definition)

/-- No type ever stands for any definition that is not known. -/
def OffersOnly (files : Files) (known : List (String × Component)) (r : Registry) : Prop :=
  ∀ name definition, r.CanResolve files name definition → (name, definition) ∈ known

/-- The type stands for no definition. -/
def Atomic (files : Files) (r : Registry) (kind : String) : Prop :=
  ∀ name definition, ((resolve files kind).run r).1 ≠ some (.composite name definition)

variable {files : Files} {known : List (String × Component)} {r : Registry} {name : String}
  {definition : Component}

theorem atomic_of_tier {kind : String}
    (tier : ((resolve files kind).run r).1.map Renderable.tier ≠ some .json) :
    r.Atomic files kind := by
  intro name definition found
  rw [found] at tier
  exact tier rfl

theorem OffersOnly.mem (offers : r.OffersOnly files known) {kind : String}
    (found : ((resolve files kind).run r).1 = some (.composite name definition)) :
    (name, definition) ∈ known :=
  offers name definition ⟨[], kind, found⟩

/-- To ask for a type offers nothing new. -/
theorem OffersOnly.resolve (offers : r.OffersOnly files known) (kind : String) :
    ((Registry.resolve files kind).run r).2.OffersOnly files known := by
  rintro name definition ⟨kinds, last, found⟩
  exact offers name definition ⟨kind :: kinds, last, found⟩

theorem later_asking (coherent : Coherent files r) (kinds : List String) :
    Later files r (r.asking files kinds) ∧ Coherent files (r.asking files kinds) := by
  induction kinds generalizing r with
  | nil => exact ⟨.refl files r, coherent⟩
  | cons kind rest ih =>
      obtain ⟨found, s, run, later, coherentNext, -⟩ := resolve_run coherent kind
      have asked : r.asking files (kind :: rest) = s.asking files rest := by
        simp only [asking, List.foldl_cons, run]
      obtain ⟨laterRest, coherentRest⟩ := ih coherentNext
      rw [asked]
      exact ⟨later.trans laterRest, coherentRest⟩

/-- Without modules, the plain chain leads to registered definitions only. -/
theorem registered_of_plain {answers : Answers} {kind : String} (modules : r.modules = [])
    (elements : ∀ kind, r.eager.find? kind ≠ some (.composite name definition))
    (found : r.plain files answers kind = some (.composite name definition)) :
    ∃ source, r.definitions.find? name = some source ∧
      source.parse? files = some definition := by
  simp only [plain] at found
  split at found
  · cases found
  · obtain ⟨last, -, meaning⟩ := Option.bind_eq_some_iff.1 found
    have missing : r.asked answers last = .missing := by
      have nowhere : r.modulePath? last = none := by
        cases (r.entry? last).bind RegistryEntry.loadPath <;>
          simp [modulePath?, modules, Record.names]
      simp only [asked, nowhere]
    rw [missing, behind] at meaning
    rcases Option.or_eq_some_iff.1 meaning with fixed | ⟨-, behind⟩
    · exact absurd fixed (elements last)
    · rcases Option.or_eq_some_iff.1 behind with known | ⟨-, icon⟩
      · obtain ⟨parsed, reads, same⟩ := Option.map_eq_some_iff.1 known
        cases same
        exact Option.bind_eq_some_iff.1 reads
      · obtain ⟨symbol, -, same⟩ := Option.map_eq_some_iff.1 icon
        cases same

/-- Without modules, only registered definitions can be resolved. -/
theorem CanResolve.registered (can : r.CanResolve files name definition)
    (coherent : Coherent files r) (modules : r.modules = [])
    (elements : ∀ kind, r.eager.find? kind ≠ some (.composite name definition)) :
    ∃ source, r.definitions.find? name = some source ∧
      source.parse? files = some definition := by
  obtain ⟨kinds, kind, resolved⟩ := can
  obtain ⟨later, coherentLater⟩ := later_asking coherent kinds
  have settled : r.Settled := by
    intro path m found
    rw [modules] at found
    cases found
  obtain ⟨found, s, run, -, -, agrees⟩ := resolve_run coherentLater kind
  rw [run, agrees (later.toAlike.settled settled), ← later.toAlike.plain] at resolved
  exact registered_of_plain modules elements resolved

end UiDoc.Registry
