import UiDoc.Proofs.Rendering.Invariants
import UiDoc.Proofs.Rendering.NodeCount

/-!
# Limits that do not trip

A limit of the guard is only seen when it trips.  With higher limits, a pass in which none has
tripped is the same again.
-/

namespace UiDoc

open Registry (Alike)

/-- No limit of the guard is higher than that of a configuration. -/
structure Guard.Within (g : Guard) (config : Config) : Prop where
  maxDepth : g.maxDepth ≤ config.maxDepth
  maxCalls : g.maxCalls ≤ config.maxCallsPerTick

namespace Rendering

open Render (gate upTo component component_eq)

variable {files : Files} {config : Config} {α β : Type}

/-! ## Higher limits -/

/-- With higher limits, the act does the same from any pass from which no limit is tripped. -/
structure Relaxes (files : Files) (config : Config) (x : Rendering α) : Prop where
  follows : Follows files x x
  same (p : Pass) : p.Sound files → p.guard.Within config → ¬ (x.run.run p).2.Tripped →
    x.run.run (p.under config) = ((x.run.run p).1, (x.run.run p).2.under config)

theorem relaxes_bind {x : Rendering α} {f : α → Rendering β} (first : Relaxes files config x)
    (second : ∀ a, Relaxes files config (f a)) : Relaxes files config (x >>= f) where
  follows := follows_bind first.follows fun a => (second a).follows
  same p sound within untripped := by
    have early := first.follows.untripped_bind (fun a => (second a).follows) sound untripped
    have same := first.same p sound within early
    have leads := first.follows.leads p sound
    cases run : x.run.run p with
    | mk result q =>
        rw [run] at same leads
        cases result with
        | error h => rw [run_bind_error run, run_bind_error same]
        | ok a =>
            have withinNext : q.guard.Within config :=
              ⟨leads.maxDepth ▸ within.maxDepth, leads.maxCalls ▸ within.maxCalls⟩
            rw [run_bind_ok run] at untripped ⊢
            rw [run_bind_ok same]
            exact (second a).same q leads.sound withinNext untripped

theorem relaxes_gate (c : Component) (depth : Nat) : Relaxes files config (gate c depth) where
  follows := follows_gate c depth
  same p _ within untripped := by
    obtain ⟨running, left, shallow⟩ := room_of_untripped untripped
    have leftUnder : p.guard.calls + 1 ≤ config.maxCallsPerTick :=
      Nat.le_trans left within.maxCalls
    have shallowUnder : depth ≤ config.maxDepth := Nat.le_trans shallow within.maxDepth
    have under : (gate c depth).run.run (p.under config) =
        (.ok none, { p.under config with guard := (p.guard.under config).counted }) :=
      run_gate_of_room running leftUnder shallowUnder
    rw [run_gate_of_room running left shallow, under]
    rfl

theorem relaxes_congruence (files : Files) (config : Config) :
    Congruence files fun x _ => Relaxes files config x where
  pure a := ⟨follows_pure a, fun _ _ _ _ => rfl⟩
  bind := relaxes_bind
  logged steady := ⟨follows_logged steady, fun _ _ _ _ => rfl⟩
  resolve kind := ⟨follows_resolve kind, fun _ _ _ _ => rfl⟩
  warnDeprecated kind := ⟨follows_warnDeprecated kind, fun p _ _ _ => by
    rw [Render.run_warnDeprecated, Render.run_warnDeprecated]
    rfl⟩
  gate := relaxes_gate

/-! ## Further levels -/

/-- Below a limit of depth, the acts do the same, and the limit stays. -/
def SameUnder (limit : Nat) (x y : Rendering α) : Prop :=
  ∀ p : Pass, p.guard.maxDepth = limit →
    x.run.run p = y.run.run p ∧ (x.run.run p).2.guard.maxDepth = limit

variable {limit : Nat}

theorem sameUnder_gate (c : Component) (depth : Nat) :
    SameUnder limit (gate c depth) (gate c depth) := by
  intro p stands
  refine ⟨rfl, ?_⟩
  rw [Render.guard_gate]
  exact (p.guard.enters depth).limits.1.trans stands

theorem sameUnder_congruence (files : Files) (limit : Nat) :
    Congruence files (SameUnder limit) where
  pure _ _ stands := ⟨rfl, stands⟩
  bind := SameFrom.bind
  logged _ _ stands := ⟨rfl, stands⟩
  resolve _ _ stands := ⟨rfl, stands⟩
  warnDeprecated kind p stands := by
    rw [Render.run_warnDeprecated]
    exact ⟨rfl, stands⟩
  gate := sameUnder_gate

/-- Beyond the limit of depth it does not matter what stands below a component. -/
theorem sameUnder_beyond {setting : Setting} {below other : Renderer} {site : Site}
    (beyond : limit < site.depth) :
    Congruence.At (SameUnder limit) (component setting below) (component setting other) site := by
  intro c scope key p stands
  have kept := (sameUnder_gate c site.depth p stands).2
  rw [component_eq, component_eq]
  cases decision : (p.guard.enter site.depth).1 with
  | proceed =>
      have enters := p.guard.enters site.depth
      rw [decision] at enters
      have shallow := enters.of_proceed.2.2.1
      exact absurd beyond (Nat.not_lt.2 (stands ▸ shallow))
  | halted =>
      have run := Render.run_gate_halted (c := c) decision
      rw [run] at kept
      rw [run_bind_error run, run_bind_error run]
      exact ⟨rfl, kept⟩
  | depthExceeded shown =>
      have run := Render.run_gate_depthExceeded (c := c) decision
      rw [run] at kept
      rw [run_bind_ok run, run_bind_ok run]
      exact ⟨rfl, kept⟩

/-- More levels than the guard lets through change nothing. -/
theorem sameUnder_levels {setting : Setting} {levels more : Nat} {site : Site}
    (deep : limit < site.depth + levels) (deepToo : limit < site.depth + more) :
    Congruence.At (SameUnder limit) (upTo setting levels) (upTo setting more) site := by
  -- The levels end where the guard cuts off, so the first to end is never seen to end.
  induction levels generalizing more site with
  | zero => cases more <;> exact sameUnder_beyond deep
  | succ levels ih =>
      cases more with
      | zero => exact sameUnder_beyond deepToo
      | succ more =>
          apply (sameUnder_congruence setting.files limit).component
          intro deeper one
          exact ih (by omega) (by omega)

end Rendering

/-! ## Passes of an interpreter -/

theorem DiagnosticKind.isLimit_iff {kind : DiagnosticKind} :
    kind.isLimit = true ↔ kind = .depthExceeded ∨ kind = .frameBudgetExceeded := by
  cases kind <;> decide

/-- Where no limit has been recorded, none has tripped. -/
theorem Diagnostics.Listed.untripped {log : Diagnostics} (listed : log.Listed)
    (free : log.Free (·.isLimit)) : ¬ log.Tripped := by
  rintro ⟨kind, site, limit, known⟩
  rcases listed kind site known with ⟨entry, member, same⟩
  exact free entry member (same ▸ limit)

namespace Interpreter

variable {files : Files} {i j : Interpreter}

/-- An untripped pass is the same with higher limits, if they let no fewer levels through. -/
theorem run_under {config : Config} (intact : i.Intact files) (within : i.guard.Within config)
    (now : Nat) (request : Request)
    (untripped : ¬ ((i.rendering files request).run.run (i.beginPass now)).2.Tripped) :
    let raised := Render.upTo ⟨files, i.config.devMode⟩ (config.maxDepth + 1) request.root
      request.scope request.key {}
    raised.run.run ((i.beginPass now).under config) =
      (((i.rendering files request).run.run (i.beginPass now)).1,
        ((i.rendering files request).run.run (i.beginPass now)).2.under config) := by
  intro raised
  let setting : Setting := ⟨files, i.config.devMode⟩
  have begins := intact.obeys.beginRender now
  have kept : (i.beginPass now).guard.maxDepth = i.guard.maxDepth :=
    begins.maxDepth.trans intact.obeys.maxDepth.symm
  have levels (more : Nat) (higher : i.guard.maxDepth ≤ more) :
      i.guard.maxDepth < ({} : Site).depth + (more + 1) := by
    rw [Nat.zero_add]
    exact Nat.lt_succ_of_le higher
  have further : Rendering.Congruence.At (Rendering.SameUnder i.guard.maxDepth)
      (Render.upTo setting (i.guard.maxDepth + 1)) (Render.upTo setting (config.maxDepth + 1)) {} :=
    Rendering.sameUnder_levels (levels _ (Nat.le_refl _)) (levels _ within.maxDepth)
  have same := (further request.root request.scope request.key _ kept).1
  have relaxes := (Rendering.relaxes_congruence setting.files config).upTo (config.maxDepth + 1) {}
    request.root request.scope request.key
  rw [rendering, same] at untripped ⊢
  have withinPass : (i.beginPass now).guard.Within config := by
    constructor
    · exact kept ▸ within.maxDepth
    · exact (begins.maxCalls.trans intact.obeys.maxCalls.symm) ▸ within.maxCalls
  exact relaxes.same _ (intact.beginPass now) withinPass untripped

/-- A pass in which nothing is recorded about a limit is the same with other limits, if there may
not be fewer levels and calls. -/
theorem render_of_higher_limits (reached : i.Reached files) (reachedOther : j.Reached files)
    (constant : i.registry.Constant) (alike : Alike files i.registry j.registry)
    (cadence : i.config.tick = .perRender)
    (same : j.config = { i.config with
      maxDepth := j.config.maxDepth
      maxCallsPerTick := j.config.maxCallsPerTick
      maxFallbacksPerTick := j.config.maxFallbacksPerTick })
    (deeper : i.config.maxDepth ≤ j.config.maxDepth)
    (longer : i.config.maxCallsPerTick ≤ j.config.maxCallsPerTick) (now later : Nat)
    (request : Request)
    (free : ∀ entry ∈ (i.render files now request).1.diagnostics.entries,
      entry.kind ≠ .depthExceeded ∧ entry.kind ≠ .frameBudgetExceeded) :
    (j.render files later request).1 = (i.render files now request).1 := by
  have intact := reached.intact
  have intactOther := reachedOther.intact
  have within : i.guard.Within j.config :=
    ⟨intact.obeys.maxDepth ▸ deeper, intact.obeys.maxCalls ▸ longer⟩
  cases run : (i.rendering files request).run.run (i.beginPass now) with
  | mk result q =>
      have logs := rendering_related (Rendering.logs_congruence files) request i (i.beginPass now)
        ⟨intact.scripts, Diagnostics.listed_empty⟩
      rw [run] at logs
      rw [render_of_run run] at free ⊢
      have untripped : ¬ q.Tripped := by
        apply logs.listed.untripped
        intro entry member limit
        rw [Output.diagnostics_ofResult] at free
        obtain ⟨notDepth, notBudget⟩ := free entry (Diagnostics.mem_entries.2 member)
        rcases DiagnosticKind.isLimit_iff.1 limit with depth | budget
        · exact notDepth depth
        · exact notBudget budget
      have raised := run_under intact within now request (by rw [run]; exact untripped)
      have cadenceOther : j.config.tick = .perRender := by rw [same]; exact cadence
      have devMode : j.config.devMode = i.config.devMode := by rw [same]
      have equal : j.rendering files request =
          Render.upTo ⟨files, i.config.devMode⟩ (j.config.maxDepth + 1) request.root request.scope
            request.key {} := by
        rw [rendering, devMode, intactOther.obeys.maxDepth]
      have mirrors := intact.mirrors_under intactOther constant alike cadence cadenceOther now later
      rw [run, ← equal] at raised
      exact (render_of_mirrors mirrors raised).1

/-- A component of an unknown type inside of another component, just within the limits. -/
theorem render_of_higher_limits_pair :
    let root : Component :=
      { kind := "div", children := some (.nodes [{ kind := "unheard-of" }]) }
    let request : Request := { root, data := .obj [] }
    let i : Interpreter :=
      .ofConfig { maxDepth := 1, maxCallsPerTick := 2, tick := .perRender } .builtin 0
    let j : Interpreter :=
      .ofConfig { maxCallsPerTick := 9, maxFallbacksPerTick := 0, tick := .perRender } .builtin 0
    (i.render {} 0 request).1.diagnostics.entries.length = 1 ∧
      (j.render {} 5 request).1 = (i.render {} 0 request).1 := by
  intro root request i j
  have opening : Registry.Reached {} .builtin := ⟨.builtin, [], .builtin, rfl⟩
  have constant : i.registry.Constant := fun path m found => nomatch found
  have free : ∀ entry ∈ (i.render {} 0 request).1.diagnostics.entries,
      entry.kind ≠ .depthExceeded ∧ entry.kind ≠ .frameBudgetExceeded := by decide +kernel
  have one : (i.render {} 0 request).1.diagnostics.entries.length = 1 := by decide +kernel
  have reached : i.Reached {} := .made _ 0 opening
  have reachedOther : j.Reached {} := .made _ 0 opening
  have alike : Alike {} i.registry j.registry := .refl {} .builtin
  exact ⟨one, render_of_higher_limits reached reachedOther constant alike rfl rfl (by decide)
    (by decide) 0 5 request free⟩

end Interpreter

end UiDoc
