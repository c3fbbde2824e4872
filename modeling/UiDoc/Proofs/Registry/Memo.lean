import UiDoc.Proofs.Registry.Plain

/-!
# What is remembered is what the tables say

A memo entry was found out from an answer that a module gave at some time.  A module may change its
mind only while it is loading, so such an answer still stands, and asking the memo is the same as
asking the tables.
-/

namespace UiDoc

/-- Once it has given an answer other than that it is loading, the module gives it again. -/
def Loader.Settled (loader : Loader) : Prop :=
  ∀ earlier call later,
    loader earlier call ≠ .pending → loader (earlier ++ call :: later) call = loader earlier call

namespace Module

/-- The module has given this answer to a call. -/
def Answered (m : Module) (call : LoadCall) (state : LoadState) : Prop :=
  ∃ earlier later, m.calls = earlier ++ call :: later ∧ m.loader earlier call = state

variable {m : Module} {call : LoadCall} {state : LoadState}

/-- The module after a further call. -/
def called (m : Module) (call : LoadCall) : Module :=
  { m with calls := m.calls ++ [call] }

theorem answered_called (m : Module) (call : LoadCall) :
    (m.called call).Answered call (m.loader m.calls call) :=
  ⟨m.calls, [], rfl, rfl⟩

theorem Answered.append (answered : m.Answered call state) (more : List LoadCall) :
    Answered { m with calls := m.calls ++ more } call state := by
  obtain ⟨earlier, later, calls, answer⟩ := answered
  exact ⟨earlier, later ++ more, by simp [calls], answer⟩

/-- An answer that has been given is the answer now. -/
theorem Answered.stands (answered : m.Answered call state) (settled : m.loader.Settled)
    (final : state ≠ .pending) : m.loader m.calls call = state := by
  obtain ⟨earlier, later, calls, answer⟩ := answered
  subst answer
  rw [calls]
  exact settled earlier call later final

end Module

namespace Registry

variable {files : Files} {r s t : Registry} {name : String} {state : LoadState}

/-- The module for a type has given this answer.  A type without a module is missing. -/
def Knows (r : Registry) (name : String) (state : LoadState) : Prop :=
  match r.modulePath? name with
  | some path => ∃ m, r.modules.find? path = some m ∧ m.Answered (r.callFor name) state
  | none => state = .missing

/-- Each memo entry follows from an answer that has been given. -/
def Coherent (files : Files) (r : Registry) : Prop :=
  ∀ name renderable, r.memo.find? name = some renderable →
    ∃ state, r.Knows name state ∧ r.behind files name state = some renderable

/-- No module takes an answer back. -/
def Settled (r : Registry) : Prop :=
  ∀ path m, r.modules.find? path = some m → m.loader.Settled

/-- At the path of a module there was a module with the same answers. -/
theorem Alike.exists_module (alike : Alike files r s) {path : String} {m : Module}
    (found : s.modules.find? path = some m) :
    ∃ old, r.modules.find? path = some old ∧ old.loader = m.loader := by
  have loader := alike.loaders path
  rwa [found, Option.map_some, Option.map_eq_some_iff] at loader

theorem Alike.settled (alike : Alike files r s) (settled : r.Settled) : s.Settled := by
  intro path m found
  obtain ⟨old, foundOld, same⟩ := alike.exists_module found
  exact same ▸ settled path old foundOld

/-- The same registrations later on: modules may have been called in between. -/
structure Later (files : Files) (r s : Registry) : Prop extends Alike files r s where
  calls : ∀ path m, r.modules.find? path = some m →
    ∃ more, s.modules.find? path = some { m with calls := m.calls ++ more }

namespace Later

theorem refl (files : Files) (r : Registry) : Later files r r where
  toAlike := .refl files r
  calls path m found := ⟨[], by simp [found]⟩

theorem trans (first : Later files r s) (second : Later files s t) : Later files r t where
  toAlike := first.toAlike.trans second.toAlike
  calls path m found := by
    obtain ⟨more, middle⟩ := first.calls path m found
    obtain ⟨evenMore, last⟩ := second.calls path _ middle
    exact ⟨more ++ evenMore, by simp [last, List.append_assoc]⟩

/-- What is known stays known. -/
theorem knows (later : Later files r s) (known : r.Knows name state) : s.Knows name state := by
  simp only [Knows] at known ⊢
  rw [← later.modulePath?, ← later.callFor]
  cases chosen : r.modulePath? name with
  | none =>
      rw [chosen] at known
      exact known
  | some path =>
      rw [chosen] at known
      obtain ⟨m, found, answered⟩ := known
      obtain ⟨more, foundLater⟩ := later.calls path m found
      exact ⟨_, foundLater, answered.append more⟩

/-- A memo entry that was justified is justified later. -/
theorem coherent (later : Later files r s) (coherent : Coherent files r) (memo : s.memo = r.memo) :
    Coherent files s := by
  intro name renderable remembered
  rw [memo] at remembered
  obtain ⟨state, known, follows⟩ := coherent name renderable remembered
  exact ⟨state, later.knows known, by rw [← later.behind, follows]⟩

end Later

/-- What is known and final is what the module answers now. -/
theorem Knows.asked (known : r.Knows name state) (settled : r.Settled) (final : state ≠ .pending) :
    r.asked r.answers name = state := by
  simp only [Knows] at known
  simp only [Registry.asked]
  cases chosen : r.modulePath? name with
  | none =>
      rw [chosen] at known
      exact known.symm
  | some path =>
      rw [chosen] at known
      obtain ⟨m, found, answered⟩ := known
      simpa [answers, found] using answered.stands (settled path m found) final

/-- A memo entry agrees with the tables. -/
theorem Coherent.behind_asked (coherent : Coherent files r) (settled : r.Settled)
    {renderable : Renderable} (remembered : r.memo.find? name = some renderable) :
    r.behind files name (r.asked r.answers name) = some renderable := by
  obtain ⟨state, known, follows⟩ := coherent name renderable remembered
  have final : state ≠ .pending := by
    rintro rfl
    simp [behind] at follows
  rw [known.asked settled final, follows]

/-! ## One resolution -/

/-- The second act starts where the first one ends. -/
theorem run_then {α β : Type} {first : StateM Registry α} {second : α → StateM Registry β}
    {found : α} (run : first.run r = (found, s)) :
    (first >>= second).run r = (second found).run s := by
  rw [StateT.run_bind, run]
  rfl

/-- The registry after a call of a module. -/
def calling (path : String) (m : Module) (call : LoadCall) (r : Registry) : Registry :=
  { r with modules := r.modules.insert path (m.called call), loads := r.loads ++ [(path, call)] }

/-- A call of a module registers nothing. -/
theorem later_calling {path : String} {m : Module} (found : r.modules.find? path = some m)
    (call : LoadCall) : Later files r (r.calling path m call) where
  entries := rfl
  eager := rfl
  icons := rfl
  paths := (Record.names_insert_of_mem _ (Record.mem_names_of_find? found)).symm
  loaders other := by
    by_cases same : other = path
    · subst same
      simp [calling, found, Module.called]
    · simp [calling, Record.find?_insert_of_ne _ same]
  definitions _ := rfl
  calls other n foundOther := by
    by_cases same : other = path
    · subst same
      rw [found] at foundOther
      cases foundOther
      exact ⟨[call], by simp [calling, Module.called]⟩
    · exact ⟨[], by simp [calling, Record.find?_insert_of_ne _ same, foundOther]⟩

/-- What has a fixed meaning or is remembered is not looked for. -/
theorem run_resolveDirect_some {renderable : Renderable}
    (known : (r.eager.find? name).or (r.memo.find? name) = some renderable) :
    (resolveDirect files name).run r = (some renderable, r) := by
  simp [resolveDirect, known]
  rfl

theorem run_resolveDirect_none (unknown : (r.eager.find? name).or (r.memo.find? name) = none) :
    (resolveDirect files name).run r = (search files name).run r := by
  simp [resolveDirect, unknown]

/-- A type without a name, and one whose wrappers form a circle, stand for nothing. -/
theorem run_resolve_none (nowhere : name = "" ∨ r.chainEnd [] name = none) :
    (resolve files name).run r = (none, r) := by
  by_cases unnamed : name = ""
  · simp [resolve, unnamed]
    rfl
  · simp [resolve, unnamed, nowhere.resolve_left unnamed]
    rfl

theorem run_resolve_some {last : String} (named : name ≠ "")
    (ends : r.chainEnd [] name = some last) :
    (resolve files name).run r = (resolveDirect files last).run r := by
  simp [resolve, named, ends]

/-- Calling a module gives the answer of the tables, which is known from then on. -/
theorem load_run (files : Files) (r : Registry) (name : String) :
    ∃ s, (load name).run r = (r.asked r.answers name, s) ∧ Later files r s ∧ s.memo = r.memo ∧
      s.Knows name (r.asked r.answers name) := by
  cases chosen : r.modulePath? name with
  | none =>
      have missing : r.moduleFor? name = none := by simp [moduleFor?_eq, chosen]
      refine ⟨r, ?_, .refl files r, rfl, ?_⟩
      · simp [load, missing, asked, chosen]
        rfl
      · simp [Knows, asked, chosen]
  | some path =>
      obtain ⟨m, found⟩ := find?_modulePath chosen
      have module : r.moduleFor? name = some (path, m) := by simp [moduleFor?_eq, chosen, found]
      have answer : r.asked r.answers name = m.loader m.calls (r.callFor name) := by
        simp [asked, chosen, answers, found]
      have later : Later files r (r.calling path m (r.callFor name)) := later_calling found _
      refine ⟨r.calling path m (r.callFor name), ?_, later, rfl, ?_⟩
      · simp [load, module, answer, calling, callFor, Module.called]
        rfl
      · have answered := m.answered_called (r.callFor name)
        rw [← answer] at answered
        simp only [Knows, ← later.modulePath?, chosen, ← later.callFor]
        exact ⟨_, by simp [calling], answered⟩

/-- Looking for a definition gives that of the tables. -/
theorem definition_run (files : Files) (r : Registry) (name : String) :
    ∃ s, (definition files name).run r = (r.defined files name, s) ∧ Later files r s ∧
      s.memo = r.memo := by
  cases found : r.definitions.find? name with
  | none =>
      refine ⟨r, ?_, .refl files r, rfl⟩
      simp [definition, found, defined]
      rfl
  | some source =>
      let s : Registry := { r with
        definitions := r.definitions.insert name (.settled (source.parse? files)) }
      have alike : Alike files r s := { Alike.refl files r with
        definitions := fun other => by
          by_cases same : other = name
          · subst same
            simp [s, found]
          · simp [s, Record.find?_insert_of_ne _ same] }
      refine ⟨s, ?_, { alike with calls := (Later.refl files r).calls }, rfl⟩
      simp [definition, found, defined, s]
      rfl

/-- Remembering what follows from a known answer keeps the memo justified. -/
theorem remember_run (coherent : Coherent files r) (known : r.Knows name state) :
    ∃ s, (remember name (r.behind files name state)).run r = (r.behind files name state, s) ∧
      Later files r s ∧ Coherent files s := by
  cases found : r.behind files name state with
  | none =>
      refine ⟨r, ?_, .refl files r, coherent⟩
      simp [remember]
      rfl
  | some renderable =>
      let s : Registry := { r with memo := r.memo.insert name renderable }
      have later : Later files r s := { Later.refl files r with }
      refine ⟨s, ?_, later, ?_⟩
      · simp [remember, s]
        rfl
      · intro other remembered entry
        by_cases same : other = name
        · subst same
          obtain rfl : renderable = remembered := by simpa [s] using entry
          exact ⟨state, later.knows known, by rw [← later.behind, found]⟩
        · have old : r.memo.find? other = some remembered := by
            simpa [s, Record.find?_insert_of_ne _ same] using entry
          obtain ⟨earlier, knownOther, follows⟩ := coherent other remembered old
          exact ⟨earlier, later.knows knownOther, by rw [← later.behind, follows]⟩

/-- Searching the tables that are remembered gives what they say. -/
theorem search_run (coherent : Coherent files r) (name : String) :
    ∃ s, (search files name).run r = (r.behind files name (r.asked r.answers name), s) ∧
      Later files r s ∧ Coherent files s := by
  obtain ⟨called, loads, later, memo, known⟩ := load_run files r name
  have coherentCalled := later.coherent coherent memo
  have same := later.behind name
  cases answer : r.asked r.answers name with
  | ready renderable =>
      rw [answer] at known loads
      obtain ⟨s, remembers, laterStill, coherentLater⟩ := remember_run coherentCalled known
      refine ⟨s, ?_, later.trans laterStill, coherentLater⟩
      rw [search, run_then loads]
      exact remembers
  | pending =>
      rw [answer] at loads
      refine ⟨called, ?_, later, coherentCalled⟩
      rw [search, run_then loads]
      rfl
  | missing =>
      rw [answer] at known loads
      obtain ⟨parsed, defines, laterParsed, memoParsed⟩ := definition_run files called name
      have coherentParsed := laterParsed.coherent coherentCalled memoParsed
      obtain ⟨s, remembers, laterStill, coherentLater⟩ :=
        remember_run coherentParsed (laterParsed.knows known)
      have wholeWay := later.trans laterParsed
      refine ⟨s, ?_, wholeWay.trans laterStill, coherentLater⟩
      rw [← wholeWay.behind] at remembers
      have icons : r.icon? name = parsed.icon? name := by simp only [icon?, wholeWay.icons]
      simp only [behind, later.defined, icons] at remembers ⊢
      rw [search, run_then loads]
      simp only
      rw [run_then defines]
      exact remembers

/-- Asking the memo before the tables keeps it justified, and gives what the tables say once no
module takes an answer back. -/
theorem resolveDirect_run (coherent : Coherent files r) (name : String) :
    ∃ found s, (resolveDirect files name).run r = (found, s) ∧ Later files r s ∧
      Coherent files s ∧ (r.Settled →
        found = (r.eager.find? name).or (r.behind files name (r.asked r.answers name))) := by
  cases fixed : r.eager.find? name with
  | some renderable =>
      have known : (r.eager.find? name).or (r.memo.find? name) = some renderable := by simp [fixed]
      exact ⟨some renderable, r, run_resolveDirect_some known, .refl files r, coherent,
        fun _ => rfl⟩
  | none =>
      cases remembered : r.memo.find? name with
      | some renderable =>
          have known : (r.eager.find? name).or (r.memo.find? name) = some renderable := by
            simp [fixed, remembered]
          refine ⟨some renderable, r, run_resolveDirect_some known, .refl files r, coherent, ?_⟩
          intro settled
          rw [coherent.behind_asked settled remembered, Option.none_or]
      | none =>
          have unknown : (r.eager.find? name).or (r.memo.find? name) = none := by
            simp [fixed, remembered]
          obtain ⟨s, searches, later, coherentLater⟩ := search_run coherent name
          rw [← run_resolveDirect_none unknown] at searches
          exact ⟨_, s, searches, later, coherentLater, fun _ => by rw [Option.none_or]⟩

/-- Finding out what a type stands for keeps the memo justified, and gives what the plain chain
computes once no module takes an answer back. -/
theorem resolve_run (coherent : Coherent files r) (name : String) :
    ∃ found s, (resolve files name).run r = (found, s) ∧ Later files r s ∧ Coherent files s ∧
      (r.Settled → found = r.plain files r.answers name) := by
  by_cases nowhere : name = "" ∨ r.chainEnd [] name = none
  · refine ⟨none, r, run_resolve_none nowhere, .refl files r, coherent, fun _ => ?_⟩
    rcases nowhere with unnamed | circle
    · simp [plain, unnamed]
    · simp [plain, circle]
  · rcases not_or.1 nowhere with ⟨named, known⟩
    obtain ⟨last, ends⟩ := Option.ne_none_iff_exists'.1 known
    obtain ⟨found, s, run, later, coherentLater, agrees⟩ := resolveDirect_run coherent last
    rw [← run_resolve_some named ends] at run
    refine ⟨found, s, run, later, coherentLater, fun settled => ?_⟩
    rw [agrees settled]
    simp [plain, named, ends]

/-! ## Modules that always answer the same -/

/-- Every module answers a call the same, whatever the calls before it. -/
def Constant (r : Registry) : Prop :=
  ∀ path m, r.modules.find? path = some m →
    ∀ earlier call, m.loader earlier call = m.loader [] call

theorem Constant.settled (constant : r.Constant) : r.Settled := by
  intro path m found earlier call later _
  rw [constant path m found, constant path m found earlier]

theorem Alike.constant (alike : Alike files r s) (constant : r.Constant) : s.Constant := by
  intro path m found
  obtain ⟨old, foundOld, same⟩ := alike.exists_module found
  exact same ▸ constant path old foundOld

/-- The same modules give the same answers, however often they have been called. -/
theorem Alike.answers_eq (alike : Alike files r s) (constant : r.Constant) :
    r.answers = s.answers := by
  funext path call
  have later := alike.constant constant
  simp only [answers]
  cases foundLater : s.modules.find? path with
  | none =>
      have loader := alike.loaders path
      simp only [foundLater, Option.map_none, Option.map_eq_none_iff] at loader
      simp [loader]
  | some m =>
      obtain ⟨old, found, same⟩ := alike.exists_module foundLater
      simp only [found, constant path old found old.calls, later path m foundLater m.calls, same]

/-- What a type stands for depends on the registrations alone. -/
theorem resolve_alike (alike : Alike files r s) (constant : r.Constant)
    (coherent : Coherent files r) (coherentOther : Coherent files s) (name : String) :
    ((resolve files name).run r).1 = ((resolve files name).run s).1 := by
  obtain ⟨found, t, run, -, -, agrees⟩ := resolve_run coherent name
  obtain ⟨other, u, runOther, -, -, agreesOther⟩ := resolve_run coherentOther name
  rw [run, runOther, agrees constant.settled, agreesOther (alike.constant constant).settled,
    alike.plain, alike.answers_eq constant]

end Registry

end UiDoc
