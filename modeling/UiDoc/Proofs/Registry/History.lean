import UiDoc.Proofs.Registry.Memo
import UiDoc.Registry.OfManifest

/-!
# Histories of a registry

Whatever is done to a registry, in whatever order, its memo stays justified.  So a history of
operations leads to the answers of the plain chain for the registrations in it.
-/

namespace UiDoc

/-- The first text that passes a test stays the first one without repetitions. -/
theorem find?_eraseDups (test : String → Bool) (texts : List String) :
    texts.eraseDups.find? test = texts.find? test := by
  match texts with
  | [] => rfl
  | text :: rest =>
      have shorter : (rest.filter fun other => !other == text).length < rest.length + 1 :=
        Nat.lt_succ_of_le (List.length_filter_le _ rest)
      rw [List.eraseDups_cons, List.find?_cons, List.find?_cons, find?_eraseDups, List.find?_filter]
      cases passes : test text with
      | true => rfl
      | false =>
          have unchanged : ∀ other,
              decide ((!other == text) = true ∧ test other = true) = test other := by
            intro other
            by_cases same : other = text <;> simp [same, passes]
          simp only [unchanged]
termination_by texts.length

/-- The name of a definition to render, and the type of its root. -/
def Renderable.outline? : Renderable → Option (String × String)
  | composite name definition => some (name, definition.kind)
  | element _ _ | icon _ => none

theorem Renderable.exists_composite {found : Option Renderable} {name kind : String}
    (outline : found.bind outline? = some (name, kind)) :
    ∃ definition, found = some (.composite name definition) ∧ definition.kind = kind := by
  obtain ⟨renderable, rfl, seen⟩ := Option.bind_eq_some_iff.1 outline
  cases renderable with
  | composite other definition =>
      obtain ⟨rfl, rfl⟩ : other = name ∧ definition.kind = kind := by simpa [outline?] using seen
      exact ⟨definition, rfl, rfl⟩
  | element _ _ | icon _ => cases seen

namespace Registry

variable {files : Files} {r s : Registry} {name : String}

/-! ## What a registration leaves as it was -/

/-- A change keeps what a memo entry of a type depends on.  It may add icons. -/
structure Keeps (files : Files) (r s : Registry) (name : String) : Prop where
  entry : r.entry? name = s.entry? name
  modules : r.modules = s.modules
  defined : r.defined files name = s.defined files name
  icon : ∀ found, r.icon? name = some found → s.icon? name = some found

theorem Keeps.knows (keeps : Keeps files r s name) {state : LoadState}
    (known : r.Knows name state) : s.Knows name state := by
  have exported : r.exportedName name = s.exportedName name := by
    simp only [exportedName, keeps.entry]
  have path : r.modulePath? name = s.modulePath? name := by
    rw [modulePath?, modulePath?, exported, keeps.entry, keeps.modules]
  have call : r.callFor name = s.callFor name := by
    rw [callFor, callFor, exported]
  simp only [Knows] at known ⊢
  rw [path, call, keeps.modules] at known
  exact known

theorem Keeps.behind (keeps : Keeps files r s name) {state : LoadState} {renderable : Renderable}
    (follows : r.behind files name state = some renderable) :
    s.behind files name state = some renderable := by
  cases state with
  | ready _ => exact follows
  | pending => exact follows
  | missing =>
      simp only [Registry.behind, keeps.defined, Option.or_eq_some_iff] at follows ⊢
      rcases follows with known | ⟨undefined, found⟩
      · exact .inl known
      · exact .inr ⟨undefined, keeps.icon _ found⟩

/-- A change that forgets each memo entry that may depend on it keeps the memo justified. -/
theorem Coherent.of_keeps (coherent : Coherent files r)
    (keeps : ∀ name renderable, s.memo.find? name = some renderable →
      r.memo.find? name = some renderable ∧ Keeps files r s name) : Coherent files s := by
  intro name renderable remembered
  obtain ⟨old, kept⟩ := keeps name renderable remembered
  obtain ⟨state, known, follows⟩ := coherent name renderable old
  exact ⟨state, kept.knows known, kept.behind follows⟩

/-- An empty memo needs no justification. -/
theorem Coherent.of_memo_eq_nil (forgotten : r.memo = []) : Coherent files r := by
  intro name renderable remembered
  simp [forgotten] at remembered

theorem icon?_registerIcons (names : List String) {found : Renderable}
    (matched : r.icon? name = some found) : (r.registerIcons names).icon? name = some found := by
  simp only [icon?, Option.map_eq_some_iff] at matched ⊢
  rcases matched with ⟨icon, first, rfl⟩
  exact ⟨icon, by simp [registerIcons, find?_eraseDups, first], rfl⟩

theorem coherent_register (coherent : Coherent files r) (name : String) (renderable : Renderable) :
    Coherent files (r.register name renderable) :=
  coherent.of_keeps fun _ _ remembered => ⟨remembered, rfl, rfl, rfl, fun _ => id⟩

theorem coherent_registerModule (path : String) (loader : Loader) (r : Registry) :
    Coherent files (r.registerModule path loader) :=
  .of_memo_eq_nil rfl

theorem defined_insert (source : DefinitionSource) {other : String} (differs : other ≠ name) :
    r.defined files other =
      defined files { r with definitions := r.definitions.insert name source } other := by
  simp only [defined, Record.find?_insert_of_ne source differs]

theorem coherent_registerDefinition (coherent : Coherent files r) (name : String)
    (source : DefinitionSource) : Coherent files (r.registerDefinition name source) := by
  apply coherent.of_keeps
  intro other renderable remembered
  simp only [registerDefinition, Record.find?_without] at remembered
  split at remembered
  · cases remembered
  · rename_i differs
    exact ⟨remembered, rfl, rfl, defined_insert source differs, fun _ => id⟩

theorem coherent_registerIcons (coherent : Coherent files r) (names : List String) :
    Coherent files (r.registerIcons names) :=
  coherent.of_keeps fun _ _ remembered =>
    ⟨remembered, rfl, rfl, rfl, fun _ => icon?_registerIcons names⟩

theorem coherent_registerTier (coherent : Coherent files r) (entry : RegistryEntry) :
    Coherent files (r.registerTier entry) := by
  simp only [registerTier]
  cases entry.sourceTier
  case primitive | ui =>
    cases entry.wrapper with
    | none => exact coherent_register coherent _ _
    | some _ => exact coherent
  case json =>
    cases entry.loadPath with
    | none => exact coherent
    | some path => exact coherent_registerDefinition coherent _ _
  case icon => exact coherent_registerIcons coherent _
  case module => exact coherent

theorem coherent_registerEntry (coherent : Coherent files r) (entry : RegistryEntry) :
    Coherent files (r.registerEntry entry) := by
  apply (coherent_registerTier coherent entry).of_keeps
  intro other renderable remembered
  simp only [registerEntry, Record.find?_without] at remembered
  split at remembered
  · cases remembered
  · rename_i differs
    refine ⟨remembered, ?_, rfl, rfl, fun _ => id⟩
    simp [registerEntry, Registry.entry?, Record.find?_insert_of_ne _ differs]

theorem coherent_registerDirectory (coherent : Coherent files r) (directory : String) :
    Coherent files (r.registerDirectory files directory).2 := by
  simp only [registerDirectory]
  generalize files.discover directory = found
  induction found generalizing r with
  | nil => exact coherent
  | cons file rest ih => exact ih (coherent_registerDefinition coherent _ _)

/-! ## Registrations do not see what has been found out -/

namespace Alike

theorem register (alike : Alike files r s) (name : String) (renderable : Renderable) :
    Alike files (r.register name renderable) (s.register name renderable) :=
  { alike with eager := congrArg (·.insert name renderable) alike.eager }

theorem registerModule (alike : Alike files r s) (path : String) (loader : Loader) :
    Alike files (r.registerModule path loader) (s.registerModule path loader) where
  entries := alike.entries
  eager := alike.eager
  icons := alike.icons
  paths := by simp only [Registry.registerModule, Record.names_insert, alike.paths]
  loaders other := by
    simp only [Registry.registerModule, Record.find?_insert]
    split
    · rfl
    · exact alike.loaders other
  definitions := alike.definitions

theorem registerDefinition (alike : Alike files r s) (name : String) (source : DefinitionSource) :
    Alike files (r.registerDefinition name source) (s.registerDefinition name source) :=
  { alike with
    definitions := fun other => by
      simp only [Registry.registerDefinition, Record.find?_insert]
      split
      · rfl
      · exact alike.definitions other }

theorem registerIcons (alike : Alike files r s) (names : List String) :
    Alike files (r.registerIcons names) (s.registerIcons names) :=
  { alike with icons := by simp only [Registry.registerIcons, alike.icons] }

theorem registerTier (alike : Alike files r s) (entry : RegistryEntry) :
    Alike files (r.registerTier entry) (s.registerTier entry) := by
  simp only [Registry.registerTier]
  cases entry.sourceTier
  case primitive | ui =>
    cases entry.wrapper with
    | none => exact alike.register _ _
    | some _ => exact alike
  case json =>
    cases entry.loadPath with
    | none => exact alike
    | some path => exact alike.registerDefinition _ _
  case icon => exact alike.registerIcons _
  case module => exact alike

theorem registerEntry (alike : Alike files r s) (entry : RegistryEntry) :
    Alike files (r.registerEntry entry) (s.registerEntry entry) :=
  { alike.registerTier entry with
    entries := congrArg (·.insert entry.key entry) (alike.registerTier entry).entries }

theorem registerDirectory (alike : Alike files r s) (directory : String) :
    Alike files (r.registerDirectory files directory).2
      (s.registerDirectory files directory).2 := by
  simp only [Registry.registerDirectory]
  generalize files.discover directory = found
  induction found generalizing r s with
  | nil => exact alike
  | cons file rest ih => exact ih (alike.registerDefinition _ _)

end Alike

/-- Parsing every definition in advance leaves its source as it was. -/
theorem alike_withParsed (files : Files) (r : Registry) : Alike files r (r.withParsed files) :=
  { Alike.refl files r with
    definitions := fun name => by
      have parsed := Record.find?_map
        (fun source => DefinitionSource.settled (source.parse? files)) r.definitions name
      simp only [withParsed, parsed]
      cases r.definitions.find? name with
      | none => rfl
      | some source => simp }

theorem later_withParsed (files : Files) (r : Registry) : Later files r (r.withParsed files) :=
  { alike_withParsed files r with calls := (Later.refl files r).calls }

/-! ## Histories -/

/-- What can be done to a registry. -/
inductive Operation where
  | entry (entry : RegistryEntry)
  | fixed (name : String) (renderable : Renderable)
  | module (path : String) (loader : Loader)
  | definition (name text : String)
  | component (name : String) (definition : Component)
  | file (name path : String)
  | directory (path : String)
  | icons (names : List String)
  | preload
  | resolve (name : String)
  | has (name : String)

namespace Operation

/-- The registration that an operation makes.  To ask is to register nothing. -/
def register (files : Files) : Operation → Registry → Registry
  | .entry e, r => r.registerEntry e
  | .fixed name renderable, r => r.register name renderable
  | .module path loader, r => r.registerModule path loader
  | .definition name text, r => r.registerDefinition name (.text text)
  | .component name c, r => r.registerDefinition name (.parsed c)
  | .file name path, r => r.registerDefinition name (.file path)
  | .directory path, r => (r.registerDirectory files path).2
  | .icons names, r => r.registerIcons names
  | .preload, r | .resolve _, r | .has _, r => r

/-- All that an operation does to a registry. -/
def perform (files : Files) : Operation → Registry → Registry
  | .preload, r => ((Registry.preload files).run r).2
  | .resolve name, r => ((Registry.resolve files name).run r).2
  | .has name, r => ((Registry.has files name).run r).2
  | other, r => other.register files r

end Operation

/-- The registry after a history. -/
def after (files : Files) (history : List Operation) (r : Registry) : Registry :=
  history.foldl (fun r op => op.perform files r) r

/-- The registry with nothing but the registrations of a history. -/
def registered (files : Files) (history : List Operation) (r : Registry) : Registry :=
  history.foldl (fun r op => op.register files r) r

theorem later_preload (files : Files) (r : Registry) :
    Later files r ((preload files).run r).2 :=
  later_withParsed files r

theorem later_resolve (coherent : Coherent files r) (name : String) :
    Later files r ((resolve files name).run r).2 ∧
      Coherent files ((resolve files name).run r).2 := by
  obtain ⟨found, s, run, later, coherentLater, -⟩ := resolve_run coherent name
  rw [run]
  exact ⟨later, coherentLater⟩

/-- One operation registers what it registers, whatever has been found out, and keeps the memo
justified. -/
theorem perform_step (op : Operation) (alike : Alike files r s) (coherent : Coherent files r) :
    Alike files (op.perform files r) (op.register files s) ∧
      Coherent files (op.perform files r) := by
  cases op with
  | entry e => exact ⟨alike.registerEntry e, coherent_registerEntry coherent e⟩
  | fixed name renderable =>
      exact ⟨alike.register name renderable, coherent_register coherent name renderable⟩
  | module path loader =>
      exact ⟨alike.registerModule path loader, coherent_registerModule path loader r⟩
  | definition name text =>
      exact ⟨alike.registerDefinition name _, coherent_registerDefinition coherent name _⟩
  | component name c =>
      exact ⟨alike.registerDefinition name _, coherent_registerDefinition coherent name _⟩
  | file name path =>
      exact ⟨alike.registerDefinition name _, coherent_registerDefinition coherent name _⟩
  | directory path =>
      exact ⟨alike.registerDirectory path, coherent_registerDirectory coherent path⟩
  | icons names => exact ⟨alike.registerIcons names, coherent_registerIcons coherent names⟩
  | preload =>
      have later := later_preload files r
      exact ⟨later.toAlike.symm.trans alike, later.coherent coherent rfl⟩
  | resolve name | has name =>
      obtain ⟨later, coherentLater⟩ := later_resolve coherent name
      exact ⟨later.toAlike.symm.trans alike, coherentLater⟩

/-- A whole history registers what its operations register, and keeps the memo justified. -/
theorem after_run (history : List Operation) (alike : Alike files r s)
    (coherent : Coherent files r) :
    Alike files (r.after files history) (s.registered files history) ∧
      Coherent files (r.after files history) := by
  induction history generalizing r s with
  | nil => exact ⟨alike, coherent⟩
  | cons op rest ih =>
      obtain ⟨alikeNext, coherentNext⟩ := perform_step op alike coherent
      exact ih alikeNext coherentNext

/-- A registry that has just been made. -/
inductive Opening (files : Files) : Registry → Prop where
  | empty : Opening files .empty
  | builtin : Opening files .builtin
  | manifest {manifest : Manifest} {r : Registry} :
      ofManifest manifest = .ok r → Opening files r
  | manifestFile {path : String} {r : Registry} :
      ofManifestFile files path = .ok r → Opening files r

theorem memo_registerEntry (entry : RegistryEntry) (forgotten : r.memo = []) :
    (r.registerEntry entry).memo = [] := by
  have tier : (r.registerTier entry).memo = [] := by
    simp only [registerTier]
    cases entry.sourceTier
    case primitive | ui => cases entry.wrapper <;> simp [register, forgotten]
    case json => cases entry.loadPath <;> simp [registerDefinition, forgotten, Record.without]
    case icon => simp [registerIcons, forgotten]
    case module => exact forgotten
  simp [registerEntry, tier, Record.without]

theorem memo_registerEntries {seen : List String} {entries : List RegistryEntry}
    (forgotten : r.memo = []) (registers : registerEntries seen entries r = .ok s) :
    s.memo = [] := by
  induction entries generalizing seen r with
  | nil =>
      simp only [registerEntries, Except.ok.injEq] at registers
      exact registers ▸ forgotten
  | cons entry rest ih =>
      simp only [registerEntries] at registers
      split at registers
      · cases registers
      · exact ih (memo_registerEntry entry forgotten) registers

theorem memo_ofManifest {manifest : Manifest} (made : ofManifest manifest = .ok r) :
    r.memo = [] := by
  simp only [ofManifest] at made
  cases entries : registerEntries [] manifest.components builtin with
  | error e => simp [entries, Except.map] at made
  | ok s =>
      simp only [entries, Except.map, Except.ok.injEq] at made
      have fresh : s.memo = [] := memo_registerEntries (r := builtin) rfl entries
      exact made ▸ fresh

theorem memo_ofManifestFile {path : String} (made : ofManifestFile files path = .ok r) :
    r.memo = [] := by
  simp only [ofManifestFile] at made
  split at made
  · cases made
  · split at made
    · cases made
    · split at made
      · cases made
      · rename_i s manifest
        cases made
        exact memo_ofManifest (r := s) manifest

/-- Nothing has been found out in a registry that has just been made. -/
theorem Opening.memo_eq_nil (opening : Opening files r) : r.memo = [] := by
  cases opening with
  | empty => rfl
  | builtin => rfl
  | manifest made => exact memo_ofManifest made
  | manifestFile made => exact memo_ofManifestFile made

/-- A registry that some history leads to. -/
def Reached (files : Files) (r : Registry) : Prop :=
  ∃ start history, Opening files start ∧ r = start.after files history

theorem Reached.coherent (reached : Reached files r) : Coherent files r := by
  rcases reached with ⟨start, history, opening, rfl⟩
  have fresh : Coherent files start := .of_memo_eq_nil opening.memo_eq_nil
  exact (after_run history (.refl files start) fresh).2

/-- What has been found out is never seen: after any history, a type stands for what the plain chain
computes from the registrations alone and from what the modules answer at this moment. -/
theorem resolve_after {start : Registry} (opening : Opening files start)
    (history : List Operation) (settled : (start.registered files history).Settled)
    (name : String) :
    ((resolve files name).run (start.after files history)).1 =
      (start.registered files history).plain files (start.after files history).answers name := by
  have fresh : Coherent files start := .of_memo_eq_nil opening.memo_eq_nil
  obtain ⟨alike, coherent⟩ := after_run history (.refl files start) fresh
  obtain ⟨found, s, run, -, -, agrees⟩ := resolve_run coherent name
  rw [run, agrees (alike.symm.settled settled), alike.plain]

/-- A module that needs two calls to be loaded. -/
def slow (renderable : Renderable) : Loader := fun earlier call =>
  if call ∈ earlier then .ready renderable else .pending

theorem slow_settled (renderable : Renderable) : (slow renderable).Settled := by
  intro earlier call later final
  simp only [slow] at final ⊢
  split at final
  · rename_i known
    simp [known]
  · contradiction

/-- A module that is asked while it is loading, in front of an icon that matches as well, and an
entry whose definition is read from a file. -/
theorem resolve_after_slow :
    let chart := Renderable.element "canvas" .module
    let legacy : RegistryEntry :=
      { key := "Legacy", sourceTier := .json, loadPath := some "legacy.json" }
    let files : Files := { texts := [(["legacy.json"], "\x7b\"type\": \"p\"\x7d")] }
    let history : List Operation :=
      [.icons ["chart"], .resolve "Chart", .module "lib/Chart.js" (slow chart), .resolve "Chart",
        .entry legacy, .preload, .has "Chart"]
    (slow chart).Settled ∧
      (∀ name, ((resolve files name).run (builtin.after files history)).1 =
        (builtin.registered files history).plain files (builtin.after files history).answers name) ∧
      ∃ definition, ((resolve files "Legacy").run (builtin.after files history)).1 =
        some (.composite "Legacy" definition) ∧ definition.kind = "p" := by
  intro chart legacy files history
  have settled : (builtin.registered files history).Settled := by
    intro path m found
    simp only [registered, history, List.foldl, Operation.register, registerEntry, registerTier,
      legacy, registerDefinition, registerModule, registerIcons, builtin, Record.insert,
      Record.find?_cons, Record.find?_nil] at found
    split at found
    · cases found
      exact slow_settled chart
    · cases found
  exact ⟨slow_settled chart, resolve_after .builtin history settled,
    Renderable.exists_composite (by decide +kernel)⟩

end Registry

end UiDoc
