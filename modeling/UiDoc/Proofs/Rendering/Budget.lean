import UiDoc.Proofs.Rendering.Invariants
import UiDoc.Proofs.Rendering.NodeCount

/-!
# When a pass is halted

Whatever is rendered needs a number of calls.  With at least so many it gives what it gives without
a limit, and with fewer the whole pass is halted, and nothing is written after that.
-/

namespace UiDoc

open Registry (Alike)

/-! ## Limits of calls -/

namespace Guard

/-- The guard with another limit of calls. -/
def limited (limit : Nat) (g : Guard) : Guard :=
  { g with maxCalls := limit }

variable {g : Guard} {limit : Nat}

/-- As long as a call is left, it does not matter how many. -/
theorem enter_limited (running : g.halted = false) (left : g.calls + 1 ≤ limit) (depth : Nat) :
    (g.limited limit).enter depth =
      (((g.limited (g.calls + 1)).enter depth).1,
        ((g.limited (g.calls + 1)).enter depth).2.limited limit) := by
  have one : ¬ g.calls + 1 < g.calls + 1 := Nat.lt_irrefl _
  simp only [enter, limited, running, if_neg (Nat.not_lt.2 left), if_neg one]
  simp only [Bool.false_eq_true, if_false]
  split
  · split <;> rfl
  · rfl

/-- The guard counts one call and stays on guard. -/
theorem enter_left (running : g.halted = false) (depth : Nat) :
    let entered := (g.limited (g.calls + 1)).enter depth
    entered.1 ≠ .halted ∧ entered.2.halted = false ∧ entered.2.calls = g.calls + 1 := by
  intro entered
  have enters : Enters depth (g.limited (g.calls + 1)) entered.1 entered.2 := Guard.enters _ _
  generalize entered.1 = decision, entered.2 = h at enters ⊢
  cases enters with
  | stillHalted stopped => exact absurd (running.symm.trans stopped) (by decide)
  | halts _ exhausted => exact absurd exhausted (Nat.lt_irrefl _)
  | fallback | hidden | proceeds => exact ⟨nofun, running, rfl⟩

theorem enter_spent (running : g.halted = false) (spent : limit < g.calls + 1) (depth : Nat) :
    ((g.limited limit).enter depth).1 = .halted := by
  simp [enter, limited, running, spent]

end Guard

/-- Where only the limits of calls differ, these are all there is to change. -/
theorem Guard.Obeys.limited_eq_under {g : Guard} {config other : Config} (obeys : g.Obeys config)
    (same : other = { config with maxCallsPerTick := other.maxCallsPerTick }) :
    g.limited other.maxCallsPerTick = g.under other := by
  have maxDepth : g.maxDepth = other.maxDepth := by rw [same, obeys.maxDepth]
  have maxFallbacks : g.maxFallbacks = other.maxFallbacksPerTick := by
    rw [same, obeys.maxFallbacks]
  rw [limited, under, ← maxDepth, ← maxFallbacks]

/-- The pass with another limit of calls. -/
def Pass.limited (limit : Nat) (p : Pass) : Pass :=
  { p with guard := p.guard.limited limit }

/-! ## What is needed -/

namespace Rendering

open Render (gate)

variable {files : Files} {α β : Type}

/-- From a pass, the act needs so many calls to get to a result and a pass. -/
structure Needs (x : Rendering α) (p : Pass) (calls : Nat) (a : α) (q : Pass) : Prop where
  running : q.guard.halted = false
  counted : q.guard.calls = p.guard.calls + calls
  enough : ∀ limit, p.guard.calls + calls ≤ limit →
    x.run.run (p.limited limit) = (.ok a, q.limited limit)
  short : ∀ limit, p.guard.calls ≤ limit → limit < p.guard.calls + calls →
    ∃ r, x.run.run (p.limited limit) = (.error .halt, r)

/-- From wherever the guard is not halted, the act needs a number of calls. -/
def Costs (x : Rendering α) : Prop :=
  ∀ p, p.guard.halted = false → ∃ calls a q, Needs x p calls a q

/-- What makes no call needs none. -/
theorem needs_nothing {x : Rendering α} {p q : Pass} {a : α} (running : p.guard.halted = false)
    (guard : q.guard = p.guard)
    (run : ∀ limit, x.run.run (p.limited limit) = (.ok a, q.limited limit)) :
    Needs x p 0 a q where
  running := guard ▸ running
  counted := by rw [guard, Nat.add_zero]
  enough limit _ := run limit
  short limit started few := absurd few (Nat.not_lt.2 started)

theorem costs_pure (a : α) : Costs (pure a : Rendering α) := by
  intro p running
  exact ⟨0, a, p, needs_nothing running rfl fun _ => rfl⟩

theorem costs_logged (act : Logged α) : Costs (logged act) := by
  intro p running
  exact ⟨0, (act.run p.journal).1, { p with journal := (act.run p.journal).2 },
    needs_nothing running rfl fun _ => rfl⟩

theorem costs_resolve (kind : String) : Costs (resolve files kind) := by
  intro p running
  let resolution := (Registry.resolve files kind).run p.registry
  exact ⟨0, resolution.1, { p with registry := resolution.2 },
    needs_nothing running rfl fun _ => rfl⟩

theorem costs_warnDeprecated (kind : String) : Costs (Render.warnDeprecated kind) := by
  intro p running
  let act := Render.deprecation p.registry kind
  refine ⟨0, (), { p with journal := (act.run p.journal).2 }, needs_nothing running rfl ?_⟩
  intro limit
  rw [Render.run_warnDeprecated]
  rfl

/-- The calls of a sequence add up. -/
theorem Needs.bind {x : Rendering α} {f : α → Rendering β} {p q r : Pass} {calls more : Nat} {a : α}
    {b : β} (first : Needs x p calls a q) (second : Needs (f a) q more b r) :
    Needs (x >>= f) p (calls + more) b r where
  running := second.running
  counted := by rw [second.counted, first.counted, Nat.add_assoc]
  enough limit enough := by
    have counted := first.counted
    rw [run_bind_ok (first.enough limit (by omega))]
    exact second.enough limit (by omega)
  short limit started few := by
    have counted := first.counted
    by_cases early : limit < p.guard.calls + calls
    · rcases first.short limit started early with ⟨r, run⟩
      exact ⟨r, run_bind_error run⟩
    · rw [run_bind_ok (first.enough limit (Nat.le_of_not_lt early))]
      exact second.short limit (by omega) (by omega)

theorem costs_bind {x : Rendering α} {f : α → Rendering β} (first : Costs x)
    (second : ∀ a, Costs (f a)) : Costs (x >>= f) := by
  intro p running
  rcases first p running with ⟨calls, a, q, needs⟩
  rcases second a q needs.running with ⟨more, b, r, needsNext⟩
  exact ⟨calls + more, b, r, needs.bind needsNext⟩

/-- A component needs one call at the gate, whether it is cut off or not. -/
theorem costs_gate (c : Component) (depth : Nat) : Costs (gate c depth) := by
  intro p running
  let last := p.limited (p.guard.calls + 1)
  obtain ⟨going, stays, counted⟩ := Guard.enter_left running depth
  have short : ∀ limit, p.guard.calls ≤ limit → limit < p.guard.calls + 1 →
      ∃ r, (gate c depth).run.run (p.limited limit) = (.error .halt, r) :=
    fun limit _ few => ⟨_, Render.run_gate_halted (Guard.enter_spent running few depth)⟩
  have entered : ∀ limit, p.guard.calls + 1 ≤ limit →
      (p.limited limit).guard.enter depth =
        ((last.guard.enter depth).1, (last.guard.enter depth).2.limited limit) :=
    fun limit enough => Guard.enter_limited running enough depth
  -- What is decided is decided alike with the last call and with any number of calls left.
  cases decision : (last.guard.enter depth).1 with
  | proceed =>
      refine ⟨1, none, { p with guard := (last.guard.enter depth).2 }, stays, counted, ?_, short⟩
      intro limit enough
      have decided := entered limit enough
      rw [decision] at decided
      rw [Render.run_gate_proceed (by rw [decided]), decided]
      rfl
  | halted => exact absurd decision going
  | depthExceeded shown =>
      refine ⟨1, some (if shown then [.fallback c.label depth] else []), { p with
        guard := (last.guard.enter depth).2
        journal := p.journal.warnOnce .depthExceeded c.label
          (Render.depthMessage depth (last.guard.enter depth).2.maxDepth) },
        stays, counted, ?_, short⟩
      intro limit enough
      have decided := entered limit enough
      rw [decision] at decided
      have cuts : ((p.limited limit).guard.enter depth).1 = .depthExceeded shown := by rw [decided]
      rw [Render.run_gate_depthExceeded cuts, decided]
      rfl

theorem costs_congruence (files : Files) : Congruence files fun x _ => Costs x where
  pure := costs_pure
  bind := costs_bind
  logged _ := costs_logged _
  resolve := costs_resolve
  warnDeprecated := costs_warnDeprecated
  gate := costs_gate

end Rendering

/-! ## What is written when the pass is halted -/

/-- What is recorded when the pass is halted. -/
def Diagnostic.budget : Diagnostic where
  kind := .frameBudgetExceeded
  site := "tick"
  message := "render budget exceeded; interpretation halted until the next tick"

/-- Nothing has been recorded about the budget. -/
def Diagnostics.Unhalted (log : Diagnostics) : Prop :=
  log.Free (· = .frameBudgetExceeded)

/-- The last entry, and no other one, is about the budget. -/
def Diagnostics.EndsHalted (log : Diagnostics) : Prop :=
  ∃ earlier : Diagnostics, log.entries = earlier.entries ++ [.budget] ∧ earlier.Unhalted

namespace Rendering

open Render (gate)

variable {α β : Type}

/-- Nothing is recorded about the budget until the act halts the pass, and nothing after that. -/
def EndsAtHalt (x : Rendering α) : Prop :=
  ∀ p : Pass, p.Logs → p.journal.Unhalted →
    match x.run.run p with
    | (.ok _, q) => q.Logs ∧ q.journal.Unhalted
    | (.error _, q) => q.journal.EndsHalted

theorem ends_bind {x : Rendering α} {f : α → Rendering β} (first : EndsAtHalt x)
    (second : ∀ a, EndsAtHalt (f a)) : EndsAtHalt (x >>= f) := by
  intro p logs unhalted
  have ends := first p logs unhalted
  cases run : x.run.run p with
  | mk result q =>
      rw [run] at ends
      cases result with
      | error h =>
          rw [run_bind_error run]
          exact ends
      | ok a =>
          rw [run_bind_ok run]
          exact second a q ends.1 ends.2

theorem ends_logged {act : Logged α} (steady : act.Steady) : EndsAtHalt (logged act) := by
  intro p logs unhalted
  rcases steady with ⟨result, notes, writes, harmless⟩
  obtain ⟨scripts, kept, run⟩ := writes p.journal logs.scripts
  rw [run_logged, run]
  refine ⟨⟨kept, logs.listed.writeAll notes⟩, unhalted.writeAll fun note member same => ?_⟩
  have other := harmless note member
  rw [same] at other
  cases other

theorem ends_gate (c : Component) (depth : Nat) : EndsAtHalt (gate c depth) := by
  intro p logs unhalted
  cases decision : (p.guard.enter depth).1 with
  | proceed =>
      rw [Render.run_gate_proceed decision]
      exact ⟨⟨logs.scripts, logs.listed⟩, unhalted⟩
  | halted =>
      rw [Render.run_gate_halted decision]
      exact ⟨p.journal.toDiagnostics, Diagnostics.warnOnce_of_free logs.listed unhalted _ _,
        unhalted⟩
  | depthExceeded shown =>
      rw [Render.run_gate_depthExceeded decision]
      let cut : Note := .once .depthExceeded c.label
        (Render.depthMessage depth (p.guard.enter depth).2.maxDepth)
      have other : ¬ cut.kind = .frameBudgetExceeded := nofun
      exact ⟨⟨logs.scripts, logs.listed.write cut⟩, unhalted.write other⟩

theorem ends_congruence (files : Files) : Congruence files fun x _ => EndsAtHalt x where
  pure _ _ logs unhalted := ⟨logs, unhalted⟩
  bind := ends_bind
  logged := ends_logged
  resolve _ _ logs unhalted := ⟨⟨logs.scripts, logs.listed⟩, unhalted⟩
  warnDeprecated kind p logs unhalted := by
    rw [Render.run_warnDeprecated]
    exact ends_logged (Render.steady_deprecation p.registry kind) p logs unhalted
  gate := ends_gate

end Rendering

/-! ## Passes of an interpreter -/

theorem Output.status_ofResult_ok (log : Diagnostics) (nodes : List Node) :
    (ofResult log (.ok nodes)).status ≠ .halted := by
  cases nodes <;> exact nofun

namespace Interpreter

/-- What a request comes to without a limit of calls.  Any interpreter with the same registrations
and with the same configuration, but for a limit that is high enough, gives this output after so
many calls. -/
def Unlimited (files : Files) (request : Request) (i : Interpreter) (free : Output) (calls : Nat) :
    Prop :=
  ∀ (j : Interpreter) (now : Nat), j.Intact files → Alike files i.registry j.registry →
    j.config = { i.config with maxCallsPerTick := j.config.maxCallsPerTick } →
    calls ≤ j.config.maxCallsPerTick →
    (j.render files now request).1 = free ∧ j.entries files now request = calls

variable {files : Files} {i : Interpreter}

theorem unlimited_of_needs {q : Pass} {request : Request} {calls : Nat} {nodes : List Node}
    (intact : i.Intact files) (constant : i.registry.Constant)
    (cadence : i.config.tick = .perRender) (now : Nat)
    (needs : Rendering.Needs (i.rendering files request) (i.beginPass now) calls nodes q) :
    i.Unlimited files request (.ofResult q.journal.toDiagnostics (.ok nodes)) calls := by
  intro j later intactOther alike same enough
  have cadenceOther : j.config.tick = .perRender := by rw [same]; exact cadence
  have started : (i.beginPass now).guard.calls = 0 := (intact.obeys.begins cadence now).calls
  have startedOther : (j.guard.beginRender later).calls = 0 :=
    (intactOther.obeys.begins cadenceOther later).calls
  have equal : j.rendering files request = i.rendering files request := by
    simp only [rendering, intactOther.obeys.maxDepth, intact.obeys.maxDepth]
    rw [same]
  have limits : (i.beginPass now).limited j.config.maxCallsPerTick =
      (i.beginPass now).under j.config :=
    congrArg (fun g => { i.beginPass now with guard := g })
      ((intact.obeys.beginRender now).limited_eq_under same)
  have mirrors := intact.mirrors_under intactOther constant alike cadence cadenceOther now later
  have run := needs.enough j.config.maxCallsPerTick (by omega)
  rw [← equal, limits] at run
  obtain ⟨output, counted⟩ := render_of_mirrors mirrors run
  refine ⟨output, ?_⟩
  rw [entries, counted, startedOther, Nat.sub_zero]
  exact needs.counted.trans (by rw [started, Nat.zero_add])

/-- The interpreter with another limit of calls. -/
def limited (limit : Nat) (i : Interpreter) : Interpreter :=
  { i with config := { i.config with maxCallsPerTick := limit }, guard := i.guard.limited limit }

/-- The interpreter itself, with a limit that is high enough, is one of those that are as without a
limit. -/
theorem Unlimited.limited {request : Request} {free : Output} {calls limit : Nat}
    (unlimited : i.Unlimited files request free calls) (intact : i.Intact files)
    (enough : calls ≤ limit) (now : Nat) :
    ((i.limited limit).render files now request).1 = free ∧
      (i.limited limit).entries files now request = calls := by
  have obeys : (i.limited limit).guard.Obeys (i.limited limit).config :=
    ⟨intact.obeys.maxDepth, rfl, intact.obeys.maxFallbacks, intact.obeys.cadence⟩
  exact unlimited _ now ⟨⟨intact.coherent, intact.scripts⟩, obeys⟩ (.refl files _) rfl enough

/-- A pass is halted exactly if it would make more calls than there may be, and then there are no
nodes, and the last entry says so.  Otherwise it is as if there were no limit of calls. -/
theorem halted_iff_calls (reached : i.Reached files) (constant : i.registry.Constant)
    (cadence : i.config.tick = .perRender) (now : Nat) (request : Request) :
    let output := (i.render files now request).1
    ∃ free calls, i.Unlimited files request free calls ∧
      (output.status = .halted ↔ i.config.maxCallsPerTick < calls) ∧
      (output.status = .halted → output.nodes = [] ∧ output.diagnostics.EndsHalted) ∧
      (output.status ≠ .halted → output = free ∧ output.diagnostics.Unhalted) := by
  have intact := reached.intact
  have begins : (i.guard.beginRender now).Mirrors (.ofConfig i.config 0) :=
    intact.obeys.begins cadence now
  have started : (i.beginPass now).guard.calls = 0 := begins.calls
  have limit : (i.beginPass now).guard.maxCalls = i.config.maxCallsPerTick := begins.maxCalls
  have own : (i.beginPass now).limited i.config.maxCallsPerTick = i.beginPass now := by
    rw [← limit]
    rfl
  obtain ⟨calls, nodes, q, needs⟩ :=
    rendering_related (Rendering.costs_congruence files) request i (i.beginPass now) begins.halted
  have ends := rendering_related (Rendering.ends_congruence files) request i (i.beginPass now)
    ⟨intact.scripts, Diagnostics.listed_empty⟩ (Diagnostics.free_empty _)
  refine ⟨_, calls, unlimited_of_needs intact constant cadence now needs, ?_⟩
  -- With its own limit, the interpreter has the calls that are needed, or falls short of them.
  by_cases enough : calls ≤ i.config.maxCallsPerTick
  · have run := needs.enough i.config.maxCallsPerTick (by omega)
    rw [own] at run
    rw [run] at ends
    rw [render_of_run run]
    have going := Output.status_ofResult_ok q.journal.toDiagnostics nodes
    refine ⟨⟨fun halted => absurd halted going, fun few => absurd few (by omega)⟩,
      fun halted => absurd halted going, fun _ => ⟨rfl, ?_⟩⟩
    rw [Output.diagnostics_ofResult]
    exact ends.2
  · obtain ⟨r, run⟩ := needs.short i.config.maxCallsPerTick (by omega) (by omega)
    rw [own] at run
    rw [run] at ends
    rw [render_of_run run]
    exact ⟨⟨fun _ => by omega, fun _ => rfl⟩, fun _ => ⟨rfl, ends⟩, fun going => absurd rfl going⟩

/-- Four components: a limit of three halts the pass, a limit of four does not. -/
theorem halted_iff_calls_four :
    let root : Component := {
      kind := "div"
      children := some (.nodes [{ kind := "p" }, { kind := "p" }, { kind := "p" }]) }
    let request : Request := { root, data := .obj [] }
    let i (limit : Nat) : Interpreter :=
      .ofConfig { maxCallsPerTick := limit, tick := .perRender } .builtin 0
    ((i 3).render {} 0 request).1.diagnostics.EndsHalted ∧
      ∃ free, (i 4).Unlimited {} request free 4 ∧ ((i 4).render {} 0 request).1 = free := by
  intro root request i
  have reached (limit : Nat) : (i limit).Reached {} := .made _ 0 ⟨.builtin, [], .builtin, rfl⟩
  have constant (limit : Nat) : (i limit).registry.Constant := fun path m found => nomatch found
  obtain ⟨_, _, _, _, ends, _⟩ := halted_iff_calls (reached 3) (constant 3) rfl 0 request
  obtain ⟨free, calls, unlimited, halts, _, going⟩ :=
    halted_iff_calls (reached 4) (constant 4) rfl 0 request
  have runs : ((i 4).render {} 0 request).1.status ≠ .halted := by decide +kernel
  have enough : calls ≤ 4 := Nat.le_of_not_lt fun few => runs (halts.2 few)
  have counted := (unlimited (i 4) 0 (reached 4).intact (.refl _ _) rfl enough).2
  have made : (i 4).entries {} 0 request = 4 := by decide +kernel
  rw [made] at counted
  exact ⟨(ends (by decide +kernel)).2, free, counted ▸ unlimited, (going runs).1⟩

end Interpreter

end UiDoc
