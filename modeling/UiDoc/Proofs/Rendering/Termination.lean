import UiDoc.Proofs.Rendering.Budget
import UiDoc.Proofs.Rendering.Chains
import UiDoc.Proofs.Rendering.Slack

/-!
# Passes end by themselves

Where types can stand for finitely many definitions only, a pass ends even if no limit is ever
reached: as no definition is rendered inside of itself, there are only so many levels, and with each
of them only so many calls.  The limits of the guard, if they are that high, are never seen.
-/

namespace UiDoc

namespace Rendering

open Render (gate upTo)

/-- A pass in which no limit has been recorded, with a guard that lets so many levels through. -/
structure Roomy (levels : Nat) (p : Pass) : Prop where
  scripts : p.journal.scripts.Faithful
  free : p.journal.Free (·.isLimit = true)
  room : levels ≤ p.guard.maxDepth

variable {levels : Nat} {files : Files} {α β : Type}

/-- Unless the act is halted, no limit is recorded. -/
def StaysRoomy (levels : Nat) (x : Rendering α) : Prop :=
  ∀ p a q, Roomy levels p → x.run.run p = (.ok a, q) → Roomy levels q

theorem staysRoomy_logged {act : Logged α} (steady : act.Steady) :
    StaysRoomy levels (logged act) := by
  intro p a q roomy run
  obtain ⟨result, notes, writes, harmless⟩ := steady
  obtain ⟨scripts, kept, acts⟩ := writes p.journal roomy.scripts
  rw [run_logged, acts] at run
  cases run
  exact ⟨kept, roomy.free.writeAll fun note member => by simp [harmless note member], roomy.room⟩

theorem StaysRoomy.bind {x : Rendering α} {f : α → Rendering β} (first : StaysRoomy levels x)
    (second : ∀ a, StaysRoomy levels (f a)) : StaysRoomy levels (x >>= f) := by
  intro p b r roomy run
  obtain ⟨a, q, runFirst, runSecond⟩ := run_bind_eq_ok.1 run
  exact second a q b r (first p a q roomy runFirst) runSecond

theorem staysRoomy_composes (files : Files) (levels : Nat) :
    Composes files (fun _ _ => True) (fun _ _ => True) fun x _ => StaysRoomy levels x where
  pure a := by
    rintro p _ _ roomy ⟨⟩
    exact roomy
  bind := .bind
  logged steady next := (staysRoomy_logged steady).bind fun a => next a trivial
  resolve next := by
    apply StaysRoomy.bind
    · rintro p found q roomy ⟨⟩
      exact ⟨roomy.scripts, roomy.free, roomy.room⟩
    · exact fun found => next found fun _ _ _ => trivial
  warnDeprecated kind := by
    intro p a q roomy run
    rw [Render.run_warnDeprecated] at run
    exact staysRoomy_logged (Render.steady_deprecation p.registry kind) p a q roomy run

/-- A component is not cut off on a level that the guard lets through. -/
theorem staysRoomy_gate (c : Component) {depth : Nat} (shallow : depth ≤ levels) :
    StaysRoomy levels (gate c depth) := by
  intro p a q roomy run
  have enters := p.guard.enters depth
  have room := roomy.room
  cases Render.gated_of_run run with
  | proceeds => exact ⟨roomy.scripts, roomy.free, enters.limits.1 ▸ room⟩
  | cut shown decision =>
      exfalso
      rw [decision] at enters
      generalize (p.guard.enter depth).2 = h at enters
      cases enters <;> omega

/-- What stays roomy inside of a component does so at the component. -/
theorem staysRoomy_component {setting : Setting} {below : Renderer} {c : Component} {site : Site}
    (shallow : site.depth ≤ levels)
    (inner : ∀ d (deeper : Site), deeper.depth = site.depth + 1 → ∀ scope key,
      StaysRoomy levels (below d scope key deeper)) (scope : Scope) (key : String) :
    StaysRoomy levels (Render.component setting below c scope key site) := by
  have inside : Composes.Inside (fun _ _ => True) (fun _ _ => True)
      (fun x _ => StaysRoomy levels x) below below c site :=
    fun d deeper places => inner d deeper places.depth
  exact (staysRoomy_composes setting.files levels).component (staysRoomy_gate c shallow) inside
    scope key

theorem staysRoomy_upTo (setting : Setting) {more : Nat} {site : Site}
    (shallow : site.depth + more ≤ levels) (c : Component) (scope : Scope) (key : String) :
    StaysRoomy levels (upTo setting more c scope key site) := by
  induction more generalizing c scope key site with
  | zero =>
      apply staysRoomy_component shallow
      exact fun _ _ _ _ _ => (staysRoomy_composes setting.files levels).pure _
  | succ more ih =>
      apply staysRoomy_component (by omega)
      exact fun d deeper depth scope key => ih (by omega) d scope key

end Rendering

/-! ## Passes of an interpreter -/

theorem Guard.beginRender_under (config : Config) (now : Nat) (g : Guard) :
    (g.under config).beginRender now = (g.beginRender now).under config := by
  have cadence : (g.under config).cadence = g.cadence := rfl
  have start : (g.under config).windowStart = g.windowStart := rfl
  simp only [beginRender, cadence, start]
  split
  · rfl
  · split <;> rfl
  · rfl

namespace Interpreter

/-- The interpreter with another configuration. -/
def under (config : Config) (i : Interpreter) : Interpreter :=
  { i with config, guard := i.guard.under config }

variable {files : Files} {i : Interpreter} {known : List (String × Component)}

theorem beginPass_under (config : Config) (now : Nat) (i : Interpreter) :
    (i.under config).beginPass now = (i.beginPass now).under config := by
  simp only [beginPass, under, Guard.beginRender_under, Pass.under]

/-- Another configuration with the same cadence leaves the interpreter intact. -/
theorem Intact.under (intact : i.Intact files) {config : Config}
    (cadence : config.tick = i.config.tick) : (i.under config).Intact files where
  coherent := intact.coherent
  scripts := intact.scripts
  obeys := ⟨rfl, rfl, rfl, intact.obeys.cadence.trans cadence.symm⟩

/-- A pass has no more levels than there can be, and renders no definition inside of itself. -/
theorem run_supervised (offers : i.registry.OffersOnly files known) {more : Nat} {request : Request}
    (deep : Render.rank known request.root {} ≤ more + 1) (stray : Renderer) (now : Nat) :
    (Render.supervised ⟨files, i.config.devMode⟩ stray (Render.rank known request.root {})
        request.root request.scope request.key {}).run.run (i.beginPass now) =
      (Render.upTo ⟨files, i.config.devMode⟩ more request.root request.scope request.key {}).run.run
        (i.beginPass now) := by
  let setting : Setting := ⟨files, i.config.devMode⟩
  have offers : (i.beginPass now).registry.OffersOnly setting.files known := offers
  have same := Render.sameFrom_supervised stray (Nat.le_refl _) List.nodup_nil deep request.scope
    request.key (i.beginPass now) offers
  exact same.1

/-- A pass that is not halted has no entries about limits, if it may go as deep as it can. -/
theorem free_of_levels (intact : i.Intact files) (offers : i.registry.OffersOnly files known)
    {now : Nat} {request : Request}
    (deep : Render.rank known request.root {} ≤ i.guard.maxDepth + 1) {nodes : List Node} {q : Pass}
    (run : (i.rendering files request).run.run (i.beginPass now) = (.ok nodes, q)) :
    q.journal.Free (·.isLimit = true) := by
  -- One level less is enough, and the guard lets all of these through.
  let setting : Setting := ⟨files, i.config.devMode⟩
  have further := run_supervised offers (Nat.le_succ_of_le deep) (Render.upTo setting 0) now
  have fewer := run_supervised offers deep (Render.upTo setting 0) now
  rw [rendering, ← further, fewer] at run
  have begins := intact.obeys.beginRender now
  have room : i.guard.maxDepth ≤ (i.beginPass now).guard.maxDepth :=
    Nat.le_of_eq (intact.obeys.maxDepth.trans begins.maxDepth.symm)
  have roomy : Rendering.Roomy i.guard.maxDepth (i.beginPass now) :=
    ⟨intact.scripts, Diagnostics.free_empty _, room⟩
  have shallow : ({} : Site).depth + i.guard.maxDepth ≤ i.guard.maxDepth :=
    Nat.le_of_eq (Nat.zero_add _)
  exact (Rendering.staysRoomy_upTo setting shallow _ _ _ _ _ _ roomy run).free

/-- A pass that reaches no limit is the same with a configuration whose limits are higher. -/
theorem rendering_under {low high : Config} (intact : (i.under low).Intact files)
    (within : (i.under low).guard.Within high) (devMode : high.devMode = low.devMode) {now : Nat}
    {request : Request} {nodes : List Node} {q : Pass}
    (run : ((i.under low).rendering files request).run.run ((i.under low).beginPass now) =
      (.ok nodes, q)) (untripped : ¬ q.Tripped) :
    ((i.under high).rendering files request).run.run ((i.under high).beginPass now) =
      (.ok nodes, q.under high) := by
  have same := run_under intact within now request (by rw [run]; exact untripped)
  rw [run, beginPass_under] at same
  have equal : (i.under high).rendering files request =
      Render.upTo ⟨files, low.devMode⟩ (high.maxDepth + 1) request.root request.scope request.key
        {} := by
    rw [← devMode]
    rfl
  rw [equal, beginPass_under]
  exact same

/-- What a request comes to without limits.  With any limits that are high enough, for so many
levels and calls, the interpreter gives this output after so many calls. -/
def Unbounded (files : Files) (now : Nat) (request : Request) (i : Interpreter) (levels : Nat)
    (free : Output) (calls : Nat) : Prop :=
  ∀ config : Config,
    config = { i.config with
      maxDepth := config.maxDepth
      maxCallsPerTick := config.maxCallsPerTick
      maxFallbacksPerTick := config.maxFallbacksPerTick } →
    levels ≤ config.maxDepth + 1 →
    (i.guard.beginRender now).calls + calls ≤ config.maxCallsPerTick →
    ((i.under config).render files now request).1 = free ∧
      (i.under config).entries files now request = calls

/-- For all levels that there can be, some number of calls is enough to come to an output that has
nothing to do with limits. -/
theorem exists_unbounded (intact : i.Intact files) (offers : i.registry.OffersOnly files known)
    {now : Nat} (running : (i.guard.beginRender now).halted = false) (request : Request) :
    ∃ free calls,
      i.Unbounded files now request (Render.rank known request.root {}) free calls ∧
      free.status ≠ .halted ∧
      ∀ entry ∈ free.diagnostics.entries,
        entry.kind ≠ .depthExceeded ∧ entry.kind ≠ .frameBudgetExceeded := by
  -- The lowest limits that are high enough: first that of levels, then that of calls.
  let least := Render.rank known request.root {} - 1
  have enough : Render.rank known request.root {} ≤ least + 1 :=
    Nat.le_succ_of_pred_le (Nat.le_refl _)
  let deep : Config := { i.config with maxDepth := least }
  have costs := rendering_related (Rendering.costs_congruence files) request (i.under deep)
  obtain ⟨calls, nodes, q, needs⟩ := costs ((i.beginPass now).under deep) running
  let limit := (i.guard.beginRender now).calls + calls
  let lowest : Config := { deep with maxCallsPerTick := limit }
  have intactLow : (i.under lowest).Intact files := intact.under rfl
  have run : ((i.under lowest).rendering files request).run.run ((i.under lowest).beginPass now) =
      (.ok nodes, q.limited limit) := by
    rw [beginPass_under]
    exact needs.enough limit (Nat.le_refl _)
  have offersLow : (i.under lowest).registry.OffersOnly files known := offers
  have free := free_of_levels intactLow offersLow enough run
  have logs := rendering_related (Rendering.logs_congruence files) request (i.under lowest)
    ((i.under lowest).beginPass now) ⟨intactLow.scripts, Diagnostics.listed_empty⟩
  rw [run] at logs
  refine ⟨.ofResult q.journal.toDiagnostics (.ok nodes), calls, ?_, ?_, ?_⟩
  · intro config same deeper longer
    have within : (i.under lowest).guard.Within config := ⟨Nat.pred_le_of_le_succ deeper, longer⟩
    have devMode : config.devMode = lowest.devMode := by rw [same]
    have runHere := rendering_under intactLow within devMode run (logs.listed.untripped free)
    have started : ((i.under config).guard.beginRender now).calls =
        (i.guard.beginRender now).calls := by
      rw [under, Guard.beginRender_under]
      rfl
    have ended : ((q.limited limit).under config).guard.calls =
        (i.guard.beginRender now).calls + calls := needs.counted
    rw [entries, render_of_run runHere, started, ended, Nat.add_sub_cancel_left]
    exact ⟨rfl, rfl⟩
  · exact Output.status_ofResult_ok _ _
  · intro entry member
    rw [Output.diagnostics_ofResult] at member
    have harmless : ¬ entry.kind.isLimit = true := free entry (Diagnostics.mem_entries.1 member)
    rw [DiagnosticKind.isLimit_iff] at harmless
    exact not_or.1 harmless

/-- If types can only ever stand for the definitions of a list, a pass ends by itself.  It has no
more levels than there are in the document and in these definitions, and wherever it renders
something, the definitions on the way there are distinct, as those inside of themselves are refused.
With limits that are high enough, none is reached, and it does not matter how high they are. -/
theorem render_terminates (reached : i.Reached files)
    (offers : i.registry.OffersOnly files known) (now : Nat) (request : Request) :
    let setting : Setting := ⟨files, i.config.devMode⟩
    let levels := Render.rank known request.root {}
    (∀ stray more, levels ≤ more + 1 →
      (Render.supervised setting stray levels request.root request.scope request.key {}).run.run
          (i.beginPass now) =
        (Render.upTo setting more request.root request.scope request.key {}).run.run
          (i.beginPass now)) ∧
      (i.beginPass now).Told ∧ (∀ more, Render.Refuses setting (Render.upTo setting more)) ∧
      ((i.guard.beginRender now).halted = false →
        ∃ free calls, i.Unbounded files now request levels free calls ∧ free.status ≠ .halted ∧
          ∀ entry ∈ free.diagnostics.entries,
            entry.kind ≠ .depthExceeded ∧ entry.kind ≠ .frameBudgetExceeded) := by
  intro setting levels
  have intact := reached.intact
  refine ⟨?_, ⟨intact.scripts, Diagnostics.complete_empty⟩, Render.refuses_upTo setting, ?_⟩
  · intro stray more deep
    exact run_supervised offers deep stray now
  · intro running
    exact exists_unbounded intact offers running request

/-- Two definitions with instances of each other, in each other and in the children of instances. -/
theorem render_terminates_mutual :
    let a : Component := {
      kind := "div"
      children := some (.nodes [{
        kind := "B", children := some (.nodes [{ kind := "A" }, { kind := "p" }]) }]) }
    let b : Component := {
      kind := "section"
      children := some (.nodes [{ kind := "Slot" }, { kind := "A" }, { kind := "B" }]) }
    let request : Request := { root := { kind := "A" }, data := .obj [] }
    let r := Registry.builtin.after {} [.component "A" a, .component "B" b]
    let i : Interpreter := .ofConfig { tick := .perRender } r 0
    let output := (i.render {} 0 request).1
    output.diagnostics.entries.map (fun entry => (entry.kind, entry.site)) =
        [(.circularDefinition, "A"), (.circularDefinition, "B")] ∧
      ∃ free calls, i.Unbounded {} 0 request 6 free calls ∧ free.status ≠ .halted := by
  intro a b request r i output
  refine ⟨by decide +kernel, ?_⟩
  have registered : r.Reached {} := ⟨.builtin, _, .builtin, rfl⟩
  have offers : r.OffersOnly {} [("A", a), ("B", b)] := by
    intro name definition can
    have elements : ∀ kind, r.eager.find? kind ≠ some (.composite name definition) := by
      intro kind found
      obtain ⟨tag, -, same⟩ := List.mem_map.1 (Record.mem_of_find? found)
      cases same
    obtain ⟨source, known, parsed⟩ := can.registered registered.coherent rfl elements
    have definitions : r.definitions = [("A", .parsed a), ("B", .parsed b)] := rfl
    have member := Record.mem_of_find? known
    rw [definitions] at member
    rcases List.mem_cons.1 member with same | later
    · cases same
      cases parsed
      exact List.mem_cons_self
    · cases List.mem_singleton.1 later
      cases parsed
      exact List.mem_cons_of_mem _ List.mem_cons_self
  have reached : i.Reached {} := .made _ 0 registered
  obtain ⟨-, -, -, ends⟩ := render_terminates reached offers 0 request
  obtain ⟨free, calls, unbounded, going, -⟩ := ends rfl
  exact ⟨free, calls, unbounded, going⟩

end Interpreter

end UiDoc
