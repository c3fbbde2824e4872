import UiDoc.Proofs.Rendering.Untripped

/-!
# Passes that mirror each other

Two passes with the same registrations, the same counters and the same entries are rendered from
alike, whatever has been found out about types and which scripts have been compiled before.  Here a
limit may be tripped: then it is tripped in both.
-/

namespace UiDoc

open Registry (Alike)

/-! ## Guards -/

namespace Guard

/-- The guards differ in their clocks at most. -/
structure Mirrors (g h : Guard) : Prop where
  maxDepth : g.maxDepth = h.maxDepth
  maxCalls : g.maxCalls = h.maxCalls
  maxFallbacks : g.maxFallbacks = h.maxFallbacks
  calls : g.calls = h.calls
  fallbacksShown : g.fallbacksShown = h.fallbacksShown
  halted : g.halted = h.halted

theorem Mirrors.symm {g h : Guard} (mirrors : g.Mirrors h) : h.Mirrors g :=
  ⟨mirrors.maxDepth.symm, mirrors.maxCalls.symm, mirrors.maxFallbacks.symm, mirrors.calls.symm,
    mirrors.fallbacksShown.symm, mirrors.halted.symm⟩

theorem Mirrors.trans {g h k : Guard} (first : g.Mirrors h) (second : h.Mirrors k) :
    g.Mirrors k where
  maxDepth := first.maxDepth.trans second.maxDepth
  maxCalls := first.maxCalls.trans second.maxCalls
  maxFallbacks := first.maxFallbacks.trans second.maxFallbacks
  calls := first.calls.trans second.calls
  fallbacksShown := first.fallbacksShown.trans second.fallbacksShown
  halted := first.halted.trans second.halted

/-- The guards decide the same about a component. -/
theorem Mirrors.enter {g h : Guard} (mirrors : g.Mirrors h) (depth : Nat) :
    (g.enter depth).1 = (h.enter depth).1 ∧ (g.enter depth).2.Mirrors (h.enter depth).2 := by
  obtain ⟨maxDepth, maxCalls, maxFallbacks, calls, fallbacksShown, halted⟩ := mirrors
  simp only [Guard.enter, maxDepth, maxCalls, maxFallbacks, calls, fallbacksShown, halted]
  split
  · exact ⟨rfl, ⟨maxDepth, maxCalls, maxFallbacks, calls, fallbacksShown, halted⟩⟩
  · split
    · exact ⟨rfl, ⟨rfl, rfl, rfl, rfl, rfl, rfl⟩⟩
    · split
      · split <;> exact ⟨rfl, ⟨rfl, rfl, rfl, rfl, rfl, rfl⟩⟩
      · exact ⟨rfl, ⟨rfl, rfl, rfl, rfl, rfl, rfl⟩⟩

end Guard

/-! ## Passes -/

/-- The passes differ in what they have remembered at most. -/
structure Pass.Mirrors (files : Files) (p q : Pass) : Prop where
  sound : p.Sound files
  soundOther : q.Sound files
  constant : p.registry.Constant
  registry : Alike files p.registry q.registry
  guard : p.guard.Mirrors q.guard
  diagnostics : p.journal.toDiagnostics = q.journal.toDiagnostics

namespace Rendering

open Render (gate)

/-- From passes that mirror each other, the acts have the same result and lead to such passes. -/
def Mirrored (files : Files) {α : Type} (x y : Rendering α) : Prop :=
  ∀ p q, p.Mirrors files q →
    (x.run.run p).1 = (y.run.run q).1 ∧ (x.run.run p).2.Mirrors files (y.run.run q).2

variable {files : Files} {α β : Type}

theorem mirrored_bind {x y : Rendering α} {f g : α → Rendering β} (first : Mirrored files x y)
    (second : ∀ a, Mirrored files (f a) (g a)) : Mirrored files (x >>= f) (y >>= g) :=
  Matching.bind first second

theorem mirrored_logged {act : Logged α} (steady : act.Steady) :
    Mirrored files (logged act) (logged act) := by
  intro p q mirrors
  obtain ⟨result, notes, writes, -⟩ := steady
  obtain ⟨scripts, kept, run⟩ := writes p.journal mirrors.sound.scripts
  obtain ⟨others, keptOther, runOther⟩ := writes q.journal mirrors.soundOther.scripts
  rw [run_logged, run_logged, run, runOther]
  exact ⟨rfl, { mirrors with
    sound := ⟨mirrors.sound.coherent, kept⟩
    soundOther := ⟨mirrors.soundOther.coherent, keptOther⟩
    diagnostics := congrArg (Note.writeAll notes) mirrors.diagnostics }⟩

theorem mirrored_resolve (kind : String) :
    Mirrored files (resolve files kind) (resolve files kind) := by
  intro p q mirrors
  have result := Registry.resolve_alike mirrors.registry mirrors.constant mirrors.sound.coherent
    mirrors.soundOther.coherent kind
  obtain ⟨found, r, run, later, coherent, -⟩ :=
    Registry.resolve_run mirrors.sound.coherent kind
  obtain ⟨other, s, runOther, laterOther, coherentOther, -⟩ :=
    Registry.resolve_run mirrors.soundOther.coherent kind
  rw [run_resolve, run_resolve, result, run, runOther]
  exact ⟨rfl, { mirrors with
    sound := ⟨coherent, mirrors.sound.scripts⟩
    soundOther := ⟨coherentOther, mirrors.soundOther.scripts⟩
    constant := later.toAlike.constant mirrors.constant
    registry := (later.toAlike.symm.trans mirrors.registry).trans laterOther.toAlike }⟩

theorem mirrored_warnDeprecated (kind : String) :
    Mirrored files (Render.warnDeprecated kind) (Render.warnDeprecated kind) := by
  intro p q mirrors
  have written : Render.deprecation q.registry kind = Render.deprecation p.registry kind := by
    simp only [Render.deprecation, mirrors.registry.entry?]
  rw [Render.run_warnDeprecated, Render.run_warnDeprecated, written]
  exact mirrored_logged (Render.steady_deprecation p.registry kind) p q mirrors

theorem mirrored_gate (c : Component) (depth : Nat) :
    Mirrored files (gate c depth) (gate c depth) := by
  intro p q mirrors
  obtain ⟨same, guards⟩ := mirrors.guard.enter depth
  have entered {j k : Journal} (scripts : j.scripts.Faithful) (scriptsOther : k.scripts.Faithful)
      (diagnostics : j.toDiagnostics = k.toDiagnostics) :
      Pass.Mirrors files ⟨p.registry, (p.guard.enter depth).2, j⟩
        ⟨q.registry, (q.guard.enter depth).2, k⟩ := { mirrors with
    sound := ⟨mirrors.sound.coherent, scripts⟩
    soundOther := ⟨mirrors.soundOther.coherent, scriptsOther⟩
    guard := guards
    diagnostics := diagnostics }
  cases decision : (p.guard.enter depth).1 with
  | proceed =>
      rw [Render.run_gate_proceed decision, Render.run_gate_proceed (same ▸ decision)]
      exact ⟨rfl, entered mirrors.sound.scripts mirrors.soundOther.scripts mirrors.diagnostics⟩
  | halted =>
      rw [Render.run_gate_halted decision, Render.run_gate_halted (same ▸ decision)]
      exact ⟨rfl, entered mirrors.sound.scripts mirrors.soundOther.scripts
        (congrArg (Diagnostics.warnOnce _ _ _) mirrors.diagnostics)⟩
  | depthExceeded shown =>
      rw [Render.run_gate_depthExceeded decision, Render.run_gate_depthExceeded (same ▸ decision),
        guards.maxDepth]
      exact ⟨rfl, entered mirrors.sound.scripts mirrors.soundOther.scripts
        (congrArg (Diagnostics.warnOnce _ _ _) mirrors.diagnostics)⟩

/-- To mirror each other is kept by whatever rendering is composed of. -/
theorem mirrored_congruence (files : Files) : Congruence files (Mirrored files) where
  pure _ _ _ mirrors := ⟨rfl, mirrors⟩
  bind := mirrored_bind
  logged := mirrored_logged
  resolve := mirrored_resolve
  warnDeprecated := mirrored_warnDeprecated
  gate := mirrored_gate

end Rendering

end UiDoc
