import Mathlib.Data.List.Nodup
import UiDoc.Proofs.Rendering.Freshness

/-!
# Documents that are being developed

While a document is being developed, undefined bindings are recorded each time they are met.  All
other entries are warnings, and of these only the first one about a site is made.  Nothing reads
the entries, so a pass that records undefined bindings differs from one that does not in these
records only.
-/

namespace UiDoc

open Registry (Alike)

/-! ## Entries apart from undefined bindings -/

/-- What an entry is about, and where. -/
def Diagnostic.place (entry : Diagnostic) : DiagnosticKind × String :=
  (entry.kind, entry.site)

namespace Diagnostics

variable {log : Diagnostics} {kind : DiagnosticKind}

/-- The diagnostics without the undefined bindings. -/
def withoutUndefined (log : Diagnostics) : Diagnostics :=
  { log with reversed := log.reversed.filter fun entry => entry.kind ≠ .undefinedBinding }

/-- Apart from undefined bindings, there is one entry of whatever has been warned about. -/
structure Once (log : Diagnostics) : Prop where
  places : log.withoutUndefined.reversed.map Diagnostic.place = log.warned
  nodup : log.warned.Nodup

theorem once_empty : empty.Once :=
  ⟨rfl, .nil⟩

theorem entries_withoutUndefined (log : Diagnostics) :
    log.withoutUndefined.entries =
      log.entries.filter fun entry => entry.kind ≠ .undefinedBinding :=
  List.filter_reverse.symm

theorem withoutUndefined_record_undefined (site message : String) (log : Diagnostics) :
    (log.record .undefinedBinding site message).withoutUndefined = log.withoutUndefined := by
  simp [withoutUndefined, record]

theorem withoutUndefined_record (other : kind ≠ .undefinedBinding) (site message : String)
    (log : Diagnostics) :
    (log.record kind site message).withoutUndefined =
      log.withoutUndefined.record kind site message := by
  simp [withoutUndefined, record, other]

theorem withoutUndefined_warnOnce (other : kind ≠ .undefinedBinding) (site message : String)
    (log : Diagnostics) :
    (log.warnOnce kind site message).withoutUndefined =
      log.withoutUndefined.warnOnce kind site message := by
  by_cases known : (kind, site) ∈ log.warned
  · have knownToo : (kind, site) ∈ log.withoutUndefined.warned := known
    rw [warnOnce, warnOnce, if_pos known, if_pos knownToo]
  · have newToo : (kind, site) ∉ log.withoutUndefined.warned := known
    rw [warnOnce, warnOnce, if_neg known, if_neg newToo, withoutUndefined_record other]
    rfl

theorem withoutUndefined_withoutUndefined (log : Diagnostics) :
    log.withoutUndefined.withoutUndefined = log.withoutUndefined := by
  simp [withoutUndefined]

theorem Once.withoutUndefined (once : log.Once) : log.withoutUndefined.Once where
  places := by
    rw [withoutUndefined_withoutUndefined]
    exact once.places
  nodup := once.nodup

theorem Once.nodup_entries (once : log.Once) :
    ((log.entries.filter fun entry => entry.kind ≠ .undefinedBinding).map
      Diagnostic.place).Nodup := by
  rw [← entries_withoutUndefined, entries, List.map_reverse, once.places]
  exact List.nodup_reverse.2 once.nodup

theorem Once.record (once : log.Once) (site message : String) :
    (log.record .undefinedBinding site message).Once where
  places := by
    rw [withoutUndefined_record_undefined]
    exact once.places
  nodup := once.nodup

theorem Once.warnOnce (once : log.Once) (other : kind ≠ .undefinedBinding) (site message : String) :
    (log.warnOnce kind site message).Once := by
  by_cases known : (kind, site) ∈ log.warned
  · rw [Diagnostics.warnOnce, if_pos known]
    exact once
  · rw [Diagnostics.warnOnce, if_neg known]
    constructor
    · rw [withoutUndefined_record other]
      exact congrArg ((kind, site) :: ·) once.places
    · exact List.nodup_cons.2 ⟨known, once.nodup⟩

end Diagnostics

/-! ## Acts -/

namespace Note

/-- The note is either a warning or the record of an undefined binding. -/
inductive Regular : Note → Prop where
  | once {kind : DiagnosticKind} (site message : String) :
      kind ≠ .undefinedBinding → Regular (.once kind site message)
  | each (site message : String) : Regular (.each .undefinedBinding site message)

/-- The notes that are not about undefined bindings. -/
def warnings (notes : List Note) : List Note :=
  notes.filter fun note => note.kind ≠ .undefinedBinding

variable {notes : List Note}

theorem warnings_once_cons {kind : DiagnosticKind} (other : kind ≠ .undefinedBinding)
    (site message : String) :
    warnings (.once kind site message :: notes) = .once kind site message :: warnings notes :=
  List.filter_cons_of_pos (decide_eq_true other)

theorem warnings_append (first second : List Note) :
    warnings (first ++ second) = warnings first ++ warnings second :=
  List.filter_append ..

end Note

namespace Diagnostics

variable {log : Diagnostics} {notes : List Note}

theorem Once.writeAll (once : log.Once) (regular : ∀ note ∈ notes, note.Regular) :
    (Note.writeAll notes log).Once := by
  induction notes generalizing log with
  | nil => exact once
  | cons note rest ih =>
      obtain ⟨first, others⟩ := List.forall_mem_cons.1 regular
      refine ih ?_ others
      cases first with
      | once site message other => exact once.warnOnce other site message
      | each site message => exact once.record site message

/-- Apart from undefined bindings, only the warnings are seen. -/
theorem withoutUndefined_writeAll (regular : ∀ note ∈ notes, note.Regular) (log : Diagnostics) :
    (Note.writeAll notes log).withoutUndefined =
      Note.writeAll (Note.warnings notes) log.withoutUndefined := by
  induction notes generalizing log with
  | nil => rfl
  | cons note rest ih =>
      obtain ⟨first, others⟩ := List.forall_mem_cons.1 regular
      refine (ih others _).trans ?_
      cases first with
      | once site message other =>
          rw [Note.warnings_once_cons other]
          exact congrArg (Note.writeAll _) (withoutUndefined_warnOnce other site message log)
      | each site message =>
          exact congrArg (Note.writeAll _) (withoutUndefined_record_undefined site message log)

end Diagnostics

namespace Logged

variable {α : Type}

/-- The acts have the same result and write the same warnings, and the first one may also record
undefined bindings. -/
def Observes (x y : Logged α) : Prop :=
  ∃ result notes, x.Writes result notes ∧
    y.Writes result (Note.warnings notes) ∧ ∀ note ∈ notes, note.Regular

theorem observes_pure (a : α) : Observes (pure a) (pure a) :=
  ⟨a, [], writes_pure a, writes_pure a, nofun⟩

theorem observes_warnOnce {kind : DiagnosticKind} (other : kind ≠ .undefinedBinding)
    (site message : String) :
    Observes (warnOnce kind site message) (warnOnce kind site message) := by
  have writes : Writes (warnOnce kind site message) () [.once kind site message] :=
    fun j faithful => ⟨j.scripts, faithful, rfl⟩
  refine ⟨(), [.once kind site message], writes, ?_, ?_⟩
  · rw [Note.warnings_once_cons other]
    exact writes
  · exact List.forall_mem_singleton.2 (.once site message other)

/-- What components do is either the same or the record of an undefined binding. -/
theorem observes_composes : Composes DiagnosticKind.Ordinary Observes where
  pure := observes_pure
  bind := by
    rintro α β x y f g ⟨a, first, writes, writesBare, regular⟩ next
    obtain ⟨b, second, writesNext, writesNextBare, regularNext⟩ := next a
    refine ⟨b, first ++ second, writes.bind writesNext, ?_,
      List.forall_mem_append.2 ⟨regular, regularNext⟩⟩
    rw [Note.warnings_append]
    exact writesBare.bind writesNextBare
  warnOnce site message ordinary := observes_warnOnce ordinary.2 site message
  script source scope args := by
    have silent : Confined (fun _ => False) (Logged.script source scope args) :=
      confined_script source scope args
    obtain ⟨result, notes, writes, nothing⟩ := silent
    obtain rfl : notes = [] := List.eq_nil_iff_forall_not_mem.2 nothing
    exact ⟨result, [], writes, writes, nofun⟩

theorem observes_develops : Develops true false Observes := by
  intro site message
  refine ⟨(), [.each .undefinedBinding site message], ?_, writes_pure (), ?_⟩
  · exact fun j faithful => ⟨j.scripts, faithful, rfl⟩
  · exact List.forall_mem_singleton.2 (.each site message)

end Logged

/-! ## Passes -/

/-- The passes differ in the records of undefined bindings, and in which scripts are compiled. -/
structure Pass.Observes (p q : Pass) : Prop where
  registry : p.registry = q.registry
  guard : p.guard = q.guard
  scripts : p.journal.scripts.Faithful
  scriptsOther : q.journal.scripts.Faithful
  once : p.journal.Once
  diagnostics : q.journal.toDiagnostics = p.journal.withoutUndefined

namespace Rendering

open Render (gate)

variable {α : Type}

theorem observes_logged {x y : Logged α} (observes : x.Observes y) :
    Matching Pass.Observes (logged x) (logged y) := by
  intro p q begins
  obtain ⟨result, notes, writes, writesBare, regular⟩ := observes
  obtain ⟨scripts, kept, run⟩ := writes p.journal begins.scripts
  obtain ⟨others, keptOther, runOther⟩ := writesBare q.journal begins.scriptsOther
  rw [run_logged, run_logged, run, runOther]
  exact ⟨rfl, { begins with
    scripts := kept
    scriptsOther := keptOther
    once := begins.once.writeAll regular
    diagnostics := by
      rw [Diagnostics.withoutUndefined_writeAll regular, ← begins.diagnostics] }⟩

theorem observes_resolve (files : Files) (kind : String) :
    Matching Pass.Observes (resolve files kind) (resolve files kind) := by
  intro p q begins
  rw [run_resolve, run_resolve, begins.registry]
  exact ⟨rfl, { begins with registry := rfl }⟩

theorem observes_warnDeprecated (kind : String) :
    Matching Pass.Observes (Render.warnDeprecated kind) (Render.warnDeprecated kind) := by
  intro p q begins
  rw [Render.run_warnDeprecated, Render.run_warnDeprecated, begins.registry]
  refine observes_logged ?_ p q begins
  rw [Render.deprecation]
  split
  · exact Logged.observes_warnOnce (by decide) _ _
  · exact Logged.observes_pure ()

/-- The guard does the same, and what it writes is a warning. -/
theorem observes_gate (c : Component) (depth : Nat) :
    Matching Pass.Observes (gate c depth) (gate c depth) := by
  intro p q begins
  have entered {kind : DiagnosticKind} (other : kind ≠ .undefinedBinding)
      (site message : String) :
      Pass.Observes ⟨p.registry, (p.guard.enter depth).2, p.journal.warnOnce kind site message⟩
        ⟨q.registry, (p.guard.enter depth).2, q.journal.warnOnce kind site message⟩ :=
    { begins with
      guard := rfl
      once := begins.once.warnOnce other site message
      diagnostics := (congrArg (Diagnostics.warnOnce kind site message) begins.diagnostics).trans
        (Diagnostics.withoutUndefined_warnOnce other site message _).symm }
  cases decision : (p.guard.enter depth).1 with
  | proceed =>
      rw [Render.run_gate_proceed decision, Render.run_gate_proceed (begins.guard ▸ decision),
        ← begins.guard]
      exact ⟨rfl, { begins with guard := rfl }⟩
  | halted =>
      rw [Render.run_gate_halted decision, Render.run_gate_halted (begins.guard ▸ decision),
        ← begins.guard]
      exact ⟨rfl, entered (by decide) _ _⟩
  | depthExceeded shown =>
      rw [Render.run_gate_depthExceeded decision,
        Render.run_gate_depthExceeded (begins.guard ▸ decision), ← begins.guard]
      exact ⟨rfl, entered (by decide) _ _⟩

/-- To differ in the records of undefined bindings is kept by whatever rendering is composed of,
where they are recorded on one side. -/
theorem observes_parallels (files : Files) :
    Parallels ⟨files, true⟩ ⟨files, false⟩ Logged.Observes (fun _ _ => True) (fun _ _ => True)
      (Matching Pass.Observes) where
  composes := Logged.observes_composes
  develops := Logged.observes_develops
  pure _ _ _ begins := ⟨rfl, begins⟩
  bind := Matching.bind
  logged acts next := (observes_logged acts).bind fun a => next a trivial
  resolve next := (observes_resolve files _).bind fun found => next found fun _ _ _ => trivial
  warnDeprecated := observes_warnDeprecated

end Rendering

/-! ## Interpreters -/

/-- The nodes and the status of a pass come from its result alone. -/
theorem Output.ofResult_eq (log other : Diagnostics) (result : Except Halt (List Node)) :
    ofResult other result = { ofResult log result with diagnostics := other } := by
  match result with
  | .ok [] | .ok (_ :: _) | .error .halt => rfl

namespace Interpreter

/-- The interpreter, with or without records of undefined bindings. -/
def developing (devMode : Bool) (i : Interpreter) : Interpreter :=
  { i with config := { i.config with devMode } }

variable {files : Files} {i j : Interpreter}

theorem developing_of_devMode {devMode : Bool} (already : i.config.devMode = devMode) :
    i.developing devMode = i := by
  rw [← already, developing]

theorem Intact.developing (intact : i.Intact files) (devMode : Bool) :
    (i.developing devMode).Intact files where
  toSound := ⟨intact.coherent, intact.scripts⟩
  obeys := ⟨intact.obeys.maxDepth, intact.obeys.maxCalls, intact.obeys.maxFallbacks,
    intact.obeys.cadence⟩

/-- From the same beginning, a pass without the records of undefined bindings has the output of a
pass with them, apart from these. -/
theorem render_developing (files : Files) (scripts : i.scripts.Faithful) (now : Nat)
    (request : Request) :
    let full := ((i.developing true).render files now request).1
    let bare := ((i.developing false).render files now request).1
    bare = { full with diagnostics := full.diagnostics.withoutUndefined } ∧
      full.diagnostics.Once := by
  intro full bare
  have begins : (i.beginPass now).Observes (i.beginPass now) :=
    ⟨rfl, rfl, scripts, scripts, Diagnostics.once_empty, rfl⟩
  have matching : Rendering.Matching Pass.Observes ((i.developing true).rendering files request)
      ((i.developing false).rendering files request) :=
    (Rendering.observes_parallels files).upTo Rendering.observes_gate _ _ _ _ _
  obtain ⟨same, ends⟩ := matching _ _ begins
  cases run : ((i.developing true).rendering files request).run.run (i.beginPass now) with
  | mk result p =>
      cases runBare : ((i.developing false).rendering files request).run.run (i.beginPass now) with
      | mk other q =>
          rw [run, runBare] at same ends
          have fullIs : full = .ofResult p.journal.toDiagnostics result :=
            congrArg Prod.fst (render_of_run (i := i.developing true) run)
          have bareIs : bare = .ofResult q.journal.toDiagnostics other :=
            congrArg Prod.fst (render_of_run (i := i.developing false) runBare)
          obtain rfl : result = other := same
          rw [fullIs, bareIs, Output.diagnostics_ofResult, ends.diagnostics]
          exact ⟨Output.ofResult_eq .., ends.once⟩

/-- Apart from undefined bindings, every pass makes one entry of whatever it warns about. -/
theorem once_render (files : Files) (scripts : i.scripts.Faithful) (now : Nat)
    (request : Request) : (i.render files now request).1.diagnostics.Once := by
  obtain ⟨bare, once⟩ := render_developing files scripts now request
  cases devMode : i.config.devMode with
  | true => exact developing_of_devMode devMode ▸ once
  | false =>
      rw [← developing_of_devMode devMode, bare]
      exact once.withoutUndefined

/-- Records of undefined bindings are all that is added while a document is being developed: nodes,
status and other entries stay the same.  In every pass, no two entries about anything else have the
same kind and the same site. -/
theorem devMode_observes (files : Files) :
    (∀ i j : Interpreter, i.Reached files → j.Reached files → i.registry.Constant →
      Alike files i.registry j.registry → i.config.tick = .perRender →
      i.config.devMode = false → j.config = { i.config with devMode := true } →
      ∀ (now later : Nat) (request : Request),
        let bare := (i.render files now request).1
        let full := (j.render files later request).1
        full.nodes = bare.nodes ∧ full.status = bare.status ∧
          (full.diagnostics.entries.filter fun entry => entry.kind ≠ .undefinedBinding) =
            bare.diagnostics.entries) ∧
    ∀ i : Interpreter, i.Reached files → ∀ (now : Nat) (request : Request),
      (((i.render files now request).1.diagnostics.entries.filter fun entry =>
        entry.kind ≠ .undefinedBinding).map Diagnostic.place).Nodup := by
  constructor
  · intro i j reached reachedOther constant alike cadence off on now later request bare full
    -- The two may have found out different things, so the one that records is compared with itself
    -- first, as it would be without the records.
    have developed : j.developing true = j := developing_of_devMode (by rw [on])
    have config : i.config = (j.developing false).config := by
      rw [Interpreter.developing, on, ← off]
    have fresh : bare = ((j.developing false).render files later request).1 :=
      reached.intact.render_eq (reachedOther.intact.developing false) constant alike config cadence
        now later request
    have apart : bare = { full with diagnostics := full.diagnostics.withoutUndefined } := by
      rw [fresh, (render_developing files reachedOther.sound.scripts later request).1, developed]
    rw [apart, Diagnostics.entries_withoutUndefined]
    exact ⟨rfl, rfl, rfl⟩
  · intro i reached now request
    exact (once_render files reached.sound.scripts now request).nodup_entries

/-- Two components of an unknown type, both with an undefined binding. -/
theorem devMode_observes_twice :
    let child : Component := { kind := "unheard-of", bindings := [("title", .path "missing")] }
    let root : Component := { kind := "div", children := some (.nodes [child, child]) }
    let request : Request := { root, data := .obj [] }
    let i : Interpreter := .ofConfig { tick := .perRender } .builtin 0
    let j : Interpreter := .ofConfig { tick := .perRender, devMode := true } .builtin 0
    let bare := (i.render {} 0 request).1
    let full := (j.render {} 7 request).1
    bare.diagnostics.entries.length = 1 ∧ full.diagnostics.entries.length = 3 ∧
      (full.nodes = bare.nodes ∧ full.status = bare.status ∧
        (full.diagnostics.entries.filter fun entry => entry.kind ≠ .undefinedBinding) =
          bare.diagnostics.entries) ∧
      ((full.diagnostics.entries.filter fun entry => entry.kind ≠ .undefinedBinding).map
        Diagnostic.place).Nodup := by
  intro child root request i j bare full
  have one : bare.diagnostics.entries.length = 1 := by decide +kernel
  have three : full.diagnostics.entries.length = 3 := by decide +kernel
  have opening : Registry.Reached {} .builtin := ⟨.builtin, [], .builtin, rfl⟩
  have reached : i.Reached {} := .made _ 0 opening
  have reachedOther : j.Reached {} := .made _ 0 opening
  have constant : i.registry.Constant := fun path m found => nomatch found
  have observes := (devMode_observes {}).1 i j reached reachedOther constant (.refl {} .builtin) rfl
    rfl rfl 0 7 request
  exact ⟨one, three, observes, (devMode_observes {}).2 j reachedOther 7 request⟩

end Interpreter

end UiDoc
