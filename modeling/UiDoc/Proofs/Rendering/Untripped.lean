import UiDoc.Proofs.Guard
import UiDoc.Proofs.Registry.Memo
import UiDoc.Proofs.Rendering.Congruence

/-!
# Passes in which no limit is tripped

As long as no limit of the guard is tripped, what is rendered depends neither on what has been
counted, written, compiled or found out before.  So it can be rendered from any other pass that has
the same registrations and enough calls left.
-/

namespace UiDoc

open Registry (Alike Coherent Later)

/-! ## Limits in a journal -/

namespace Diagnostics

/-- A limit of the guard has been warned about. -/
def Tripped (log : Diagnostics) : Prop :=
  ∃ kind site, DiagnosticKind.isLimit kind = true ∧ (kind, site) ∈ log.warned

theorem tripped_warnOnce {kind : DiagnosticKind} (site message : String) (log : Diagnostics)
    (limit : kind.isLimit = true) : (log.warnOnce kind site message).Tripped := by
  refine ⟨kind, site, limit, ?_⟩
  simp only [warnOnce]
  split
  · rename_i known
    exact known
  · exact List.mem_cons_self ..

theorem Tripped.warnOnce {log : Diagnostics} (tripped : log.Tripped) (kind : DiagnosticKind)
    (site message : String) : (log.warnOnce kind site message).Tripped := by
  obtain ⟨limit, place, isLimit, known⟩ := tripped
  refine ⟨limit, place, isLimit, ?_⟩
  simp only [Diagnostics.warnOnce]
  split
  · exact known
  · exact List.mem_cons_of_mem _ known

/-- A note about anything else trips no limit. -/
theorem tripped_write {note : Note} (harmless : note.kind.isLimit = false) (log : Diagnostics) :
    (note.write log).Tripped ↔ log.Tripped := by
  cases note with
  | each kind site message => exact Iff.rfl
  | once kind site message =>
      constructor
      · rintro ⟨limit, place, isLimit, known⟩
        refine ⟨limit, place, isLimit, ?_⟩
        simp only [Note.write, Diagnostics.warnOnce] at known
        split at known
        · exact known
        · rcases List.mem_cons.1 known with same | known
          · cases same
            simp [Note.kind, isLimit] at harmless
          · exact known
      · exact fun tripped => tripped.warnOnce kind site message

theorem tripped_writeAll {notes : List Note} (harmless : ∀ note ∈ notes, note.kind.isLimit = false)
    (log : Diagnostics) : (Note.writeAll notes log).Tripped ↔ log.Tripped := by
  induction notes generalizing log with
  | nil => exact Iff.rfl
  | cons note rest ih =>
      simp only [List.mem_cons, forall_eq_or_imp] at harmless
      exact (ih harmless.2 _).trans (tripped_write harmless.1 log)

end Diagnostics

/-! ## Passes -/

namespace Pass

/-- A limit has been tripped in the pass. -/
def Tripped (p : Pass) : Prop :=
  p.journal.toDiagnostics.Tripped

/-- The memo and the scripts of the pass hold what they should. -/
structure Sound (files : Files) (p : Pass) : Prop where
  coherent : Coherent files p.registry
  scripts : p.journal.scripts.Faithful

/-- A sound pass leads to another one: nothing is registered, and no limit is moved or untripped. -/
structure Leads (files : Files) (p q : Pass) : Prop where
  sound : q.Sound files
  registry : Alike files p.registry q.registry
  tripped : p.Tripped → q.Tripped
  maxDepth : q.guard.maxDepth = p.guard.maxDepth
  maxCalls : q.guard.maxCalls = p.guard.maxCalls
  calls : p.guard.calls ≤ q.guard.calls

/-- The second pass has the registrations of the first, is as deep, and has as many calls left. -/
structure Fits (files : Files) (p q : Pass) : Prop where
  sound : p.Sound files
  soundOther : q.Sound files
  constant : p.registry.Constant
  registry : Alike files p.registry q.registry
  maxDepth : p.guard.maxDepth = q.guard.maxDepth
  running : q.guard.halted = false
  untripped : ¬ q.Tripped
  left : q.guard.calls + p.guard.maxCalls ≤ p.guard.calls + q.guard.maxCalls

variable {files : Files} {p q r : Pass}

theorem Leads.refl (sound : p.Sound files) : Leads files p p :=
  ⟨sound, .refl files _, id, rfl, rfl, Nat.le_refl _⟩

theorem Leads.trans (first : Leads files p q) (second : Leads files q r) : Leads files p r where
  sound := second.sound
  registry := first.registry.trans second.registry
  tripped := second.tripped ∘ first.tripped
  maxDepth := second.maxDepth.trans first.maxDepth
  maxCalls := second.maxCalls.trans first.maxCalls
  calls := Nat.le_trans first.calls second.calls

theorem Fits.refl (sound : p.Sound files) (constant : p.registry.Constant)
    (running : p.guard.halted = false) (untripped : ¬ p.Tripped) : Fits files p p :=
  ⟨sound, sound, constant, .refl files _, rfl, running, untripped, Nat.le_refl _⟩

/-- A pass still fits when the other one has gone on. -/
theorem Fits.of_leads (fits : Fits files p q) (leads : Leads files p r) : Fits files r q where
  sound := leads.sound
  soundOther := fits.soundOther
  constant := leads.registry.constant fits.constant
  registry := leads.registry.symm.trans fits.registry
  maxDepth := leads.maxDepth.trans fits.maxDepth
  running := fits.running
  untripped := fits.untripped
  left := by
    have left := fits.left
    have calls := leads.calls
    rw [leads.maxCalls]
    omega

end Pass

/-! ## Renderings -/

namespace Rendering

open Render (gate)

/-- The first act leads from sound passes to sound passes and stops at a limit only, and the second
one does the same from any pass that fits. -/
structure Follows (files : Files) {α : Type} (x y : Rendering α) : Prop where
  halts (p : Pass) (h : Halt) : (x.run.run p).1 = .error h → (x.run.run p).2.Tripped
  leads (p : Pass) : p.Sound files → p.Leads files (x.run.run p).2
  same (p q : Pass) : p.Fits files q → ¬ (x.run.run p).2.Tripped →
    (x.run.run p).1 = (y.run.run q).1 ∧ (x.run.run p).2.Fits files (y.run.run q).2

variable {files : Files} {α β : Type}

theorem follows_pure (a : α) : Follows files (pure a) (pure a) where
  halts _ _ := nofun
  leads _ sound := .refl sound
  same _ _ fits _ := ⟨rfl, fits⟩

theorem follows_bind {x y : Rendering α} {f g : α → Rendering β} (first : Follows files x y)
    (second : ∀ a, Follows files (f a) (g a)) : Follows files (x >>= f) (y >>= g) where
  halts p h stops := by
    cases run : x.run.run p with
    | mk result q =>
        cases result with
        | error other =>
            rw [run_bind_error run]
            have tripped := first.halts p other
            rw [run] at tripped
            exact tripped rfl
        | ok a =>
            rw [run_bind_ok run] at stops ⊢
            exact (second a).halts q h stops
  leads p sound := by
    have leads := first.leads p sound
    cases run : x.run.run p with
    | mk result q =>
        rw [run] at leads
        cases result with
        | error h =>
            rw [run_bind_error run]
            exact leads
        | ok a =>
            rw [run_bind_ok run]
            exact leads.trans ((second a).leads q leads.sound)
  same p q fits untripped := by
    have leads := first.leads p fits.sound
    have same := first.same p q fits
    cases run : x.run.run p with
    | mk result r =>
        rw [run] at leads same
        cases result with
        | error h =>
            rw [run_bind_error run] at untripped ⊢
            obtain ⟨result, fitsNext⟩ := same untripped
            have other : y.run.run q = (.error h, (y.run.run q).2) := Prod.ext result.symm rfl
            rw [run_bind_error other]
            exact ⟨rfl, fitsNext⟩
        | ok a =>
            rw [run_bind_ok run] at untripped ⊢
            have onward := (second a).leads r leads.sound
            obtain ⟨result, fitsNext⟩ := same fun tripped => untripped (onward.tripped tripped)
            have other : y.run.run q = (.ok a, (y.run.run q).2) := Prod.ext result.symm rfl
            rw [run_bind_ok other]
            exact (second a).same r _ fitsNext untripped

theorem follows_logged {act : Logged α} (steady : act.Steady) :
    Follows files (logged act) (logged act) := by
  obtain ⟨result, notes, writes, harmless⟩ := steady
  have sound {p : Pass} (sound : p.Sound files) : ∃ scripts, (logged act).run.run p =
      (.ok result, { p with journal :=
        { toDiagnostics := Note.writeAll notes p.journal.toDiagnostics, scripts } }) ∧
      scripts.Faithful := by
    obtain ⟨scripts, kept, run⟩ := writes p.journal sound.scripts
    exact ⟨scripts, by rw [run_logged, run], kept⟩
  constructor
  · exact fun _ _ => nofun
  · intro p before
    obtain ⟨scripts, run, kept⟩ := sound before
    rw [run]
    exact {
      sound := ⟨before.coherent, kept⟩
      registry := .refl files _
      tripped := (Diagnostics.tripped_writeAll harmless _).2
      maxDepth := rfl
      maxCalls := rfl
      calls := Nat.le_refl _ }
  · intro p q fits _
    obtain ⟨scripts, run, kept⟩ := sound fits.sound
    obtain ⟨other, runOther, keptOther⟩ := sound fits.soundOther
    rw [run, runOther]
    exact ⟨rfl, {
      sound := ⟨fits.sound.coherent, kept⟩
      soundOther := ⟨fits.soundOther.coherent, keptOther⟩
      constant := fits.constant
      registry := fits.registry
      maxDepth := fits.maxDepth
      running := fits.running
      untripped := fun tripped =>
        fits.untripped ((Diagnostics.tripped_writeAll harmless _).1 tripped)
      left := fits.left }⟩

theorem follows_resolve (kind : String) :
    Follows files (resolve files kind) (resolve files kind) where
  halts _ _ := nofun
  leads p sound := by
    obtain ⟨found, s, run, later, coherent, -⟩ := Registry.resolve_run sound.coherent kind
    rw [run_resolve, run]
    exact {
      sound := ⟨coherent, sound.scripts⟩
      registry := later.toAlike
      tripped := id
      maxDepth := rfl
      maxCalls := rfl
      calls := Nat.le_refl _ }
  same p q fits _ := by
    have result := Registry.resolve_alike fits.registry fits.constant fits.sound.coherent
      fits.soundOther.coherent kind
    obtain ⟨found, s, run, later, coherent, -⟩ := Registry.resolve_run fits.sound.coherent kind
    obtain ⟨other, t, runOther, laterOther, coherentOther, -⟩ :=
      Registry.resolve_run fits.soundOther.coherent kind
    rw [run_resolve, run_resolve, result, run, runOther]
    exact ⟨rfl, {
      sound := ⟨coherent, fits.sound.scripts⟩
      soundOther := ⟨coherentOther, fits.soundOther.scripts⟩
      constant := later.toAlike.constant fits.constant
      registry := (later.toAlike.symm.trans fits.registry).trans laterOther.toAlike
      maxDepth := fits.maxDepth
      running := fits.running
      untripped := fits.untripped
      left := fits.left }⟩

theorem follows_warnDeprecated (kind : String) :
    Follows files (Render.warnDeprecated kind) (Render.warnDeprecated kind) where
  halts p h stops := by
    rw [Render.run_warnDeprecated] at stops
    cases stops
  leads p sound := by
    rw [Render.run_warnDeprecated]
    exact (follows_logged (Render.steady_deprecation p.registry kind)).leads p sound
  same p q fits untripped := by
    have written : Render.deprecation q.registry kind = Render.deprecation p.registry kind := by
      simp only [Render.deprecation, fits.registry.entry?]
    rw [Render.run_warnDeprecated] at untripped
    rw [Render.run_warnDeprecated, Render.run_warnDeprecated, written]
    exact (follows_logged (Render.steady_deprecation p.registry kind)).same p q fits untripped

/-- Whatever the guard does, it leads on. -/
theorem leads_gate (c : Component) (depth : Nat) {p : Pass} (sound : p.Sound files) :
    p.Leads files ((gate c depth).run.run p).2 := by
  obtain ⟨maxDepth, maxCalls, calls⟩ := (p.guard.enters depth).limits
  cases decision : (p.guard.enter depth).1 with
  | proceed =>
      rw [Render.run_gate_proceed decision]
      exact ⟨⟨sound.coherent, sound.scripts⟩, .refl files _, id, maxDepth,
        maxCalls, calls⟩
  | halted =>
      rw [Render.run_gate_halted decision]
      exact ⟨⟨sound.coherent, sound.scripts⟩, .refl files _,
        fun tripped => tripped.warnOnce _ _ _, maxDepth, maxCalls, calls⟩
  | depthExceeded shown =>
      rw [Render.run_gate_depthExceeded decision]
      exact ⟨⟨sound.coherent, sound.scripts⟩, .refl files _,
        fun tripped => tripped.warnOnce _ _ _, maxDepth, maxCalls, calls⟩

/-- Where no limit is tripped, there is room for the component. -/
theorem room_of_untripped {c : Component} {depth : Nat} {p : Pass}
    (untripped : ¬ ((gate c depth).run.run p).2.Tripped) :
    p.guard.halted = false ∧ p.guard.calls + 1 ≤ p.guard.maxCalls ∧ depth ≤ p.guard.maxDepth := by
  cases decision : (p.guard.enter depth).1 with
  | proceed =>
      have enters := p.guard.enters depth
      rw [decision] at enters
      obtain ⟨running, left, shallow, -⟩ := enters.of_proceed
      exact ⟨running, left, shallow⟩
  | halted =>
      rw [Render.run_gate_halted decision] at untripped
      exact absurd (Diagnostics.tripped_warnOnce _ _ _ rfl) untripped
  | depthExceeded shown =>
      rw [Render.run_gate_depthExceeded decision] at untripped
      exact absurd (Diagnostics.tripped_warnOnce _ _ _ rfl) untripped

/-- Where there is room for a component, it is counted and may proceed. -/
theorem run_gate_of_room {c : Component} {depth : Nat} {p : Pass}
    (running : p.guard.halted = false) (left : p.guard.calls + 1 ≤ p.guard.maxCalls)
    (shallow : depth ≤ p.guard.maxDepth) :
    (gate c depth).run.run p = (.ok none, { p with guard := p.guard.counted }) := by
  have enters := Guard.enter_of_left running left shallow
  rw [Render.run_gate_proceed (congrArg Prod.fst enters), enters]

theorem follows_gate (c : Component) (depth : Nat) :
    Follows files (gate c depth) (gate c depth) where
  halts p h stops := by
    by_cases tripped : ((gate c depth).run.run p).2.Tripped
    · exact tripped
    · obtain ⟨running, left, shallow⟩ := room_of_untripped tripped
      rw [run_gate_of_room running left shallow] at stops
      cases stops
  leads p sound := leads_gate c depth sound
  same p q fits untripped := by
    obtain ⟨running, left, shallow⟩ := room_of_untripped untripped
    have budget := fits.left
    have leftOther : q.guard.calls + 1 ≤ q.guard.maxCalls := by omega
    rw [run_gate_of_room running left shallow,
      run_gate_of_room fits.running leftOther (fits.maxDepth ▸ shallow)]
    exact ⟨rfl, {
      sound := ⟨fits.sound.coherent, fits.sound.scripts⟩
      soundOther := ⟨fits.soundOther.coherent, fits.soundOther.scripts⟩
      constant := fits.constant
      registry := fits.registry
      maxDepth := fits.maxDepth
      running := fits.running
      untripped := fits.untripped
      left := by
        simp only [Guard.counted]
        omega }⟩

/-- An act in which no limit is tripped has a result, which it also has from any pass that fits, and
which still fits afterwards. -/
theorem Follows.run {x y : Rendering α} {p q : Pass} (follows : Follows files x y)
    (fits : p.Fits files q) (untripped : ¬ (x.run.run p).2.Tripped) :
    ∃ a r, x.run.run p = (.ok a, r) ∧ r.Fits files q ∧ (y.run.run q).1 = .ok a ∧
      ¬ (y.run.run q).2.Tripped := by
  obtain ⟨same, fitsNext⟩ := follows.same p q fits untripped
  have leads := follows.leads p fits.sound
  have halts := follows.halts p
  cases run : x.run.run p with
  | mk result r =>
      rw [run] at untripped same fitsNext leads halts
      cases result with
      | error h => exact absurd (halts h rfl) untripped
      | ok a => exact ⟨a, r, rfl, fits.of_leads leads, same.symm, fitsNext.untripped⟩

/-- No limit is tripped in the first part of a sequence in which none is tripped. -/
theorem Follows.untripped_bind {x y : Rendering α} {f g : α → Rendering β} {p : Pass}
    (first : Follows files x y) (second : ∀ a, Follows files (f a) (g a)) (sound : p.Sound files)
    (untripped : ¬ ((x >>= f).run.run p).2.Tripped) : ¬ (x.run.run p).2.Tripped := by
  intro tripped
  have leads := first.leads p sound
  cases run : x.run.run p with
  | mk result r =>
      rw [run] at tripped leads
      cases result with
      | error h =>
          rw [run_bind_error run] at untripped
          exact untripped tripped
      | ok a =>
          rw [run_bind_ok run] at untripped
          exact untripped (((second a).leads r leads.sound).tripped tripped)

/-- To follow is kept by whatever rendering is composed of. -/
theorem follows_congruence (files : Files) : Congruence files (Follows files) where
  pure := follows_pure
  bind := follows_bind
  logged := follows_logged
  resolve := follows_resolve
  warnDeprecated := follows_warnDeprecated
  gate := follows_gate

end Rendering

end UiDoc
