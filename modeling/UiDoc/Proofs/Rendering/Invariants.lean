import UiDoc.Proofs.Entries
import UiDoc.Proofs.Rendering.Mirroring
import UiDoc.Proofs.Rendering.Siblings

/-!
# Invariants of passes

A property of passes that is kept by the few acts that change a pass is kept by every pass.  Two of
these: the limits of the guard are never moved, and there is an entry of whatever has been warned
about.
-/

namespace UiDoc

namespace Rendering

open Render (gate)

/-- The act keeps a property of passes. -/
def Keeps (holds : Pass → Prop) {α : Type} (x : Rendering α) : Prop :=
  ∀ p, holds p → holds (x.run.run p).2

variable {files : Files} {holds : Pass → Prop} {α β : Type}

theorem Keeps.bind {x : Rendering α} {f : α → Rendering β} (first : Keeps holds x)
    (second : ∀ a, Keeps holds (f a)) : Keeps holds (x >>= f) := by
  intro p has
  have hasNext := first p has
  cases run : x.run.run p with
  | mk result q =>
      rw [run] at hasNext
      cases result with
      | error h =>
          rw [run_bind_error run]
          exact hasNext
      | ok a =>
          rw [run_bind_ok run]
          exact second a q hasNext

/-- What is kept by the acts that change a pass is kept by whatever rendering is composed of. -/
theorem keeps_congruence
    (logged : ∀ {α : Type} {act : Logged α}, act.Steady → Keeps holds (logged act))
    (resolve : ∀ kind, Keeps holds (resolve files kind))
    (gate : ∀ c depth, Keeps holds (gate c depth)) :
    Congruence files fun x _ => Keeps holds x where
  pure _ _ has := has
  bind := .bind
  logged := logged
  resolve := resolve
  warnDeprecated kind p has := by
    rw [Render.run_warnDeprecated]
    exact logged (Render.steady_deprecation p.registry kind) p has
  gate := gate

end Rendering

/-! ## The limits of the guard -/

namespace Guard

variable {g h : Guard} {config : Config}

/-- The guard with the limits of a configuration. -/
def under (config : Config) (g : Guard) : Guard :=
  { g with
    maxDepth := config.maxDepth
    maxCalls := config.maxCallsPerTick
    maxFallbacks := config.maxFallbacksPerTick }

/-- Where each pass has counters of its own, a pass begins as the very first one. -/
theorem Obeys.begins (obeys : g.Obeys config) (cadence : config.tick = .perRender) (now : Nat) :
    (g.beginRender now).Mirrors (ofConfig config 0) := by
  simp only [Guard.beginRender, obeys.cadence, cadence]
  exact ⟨obeys.maxDepth, obeys.maxCalls, obeys.maxFallbacks, rfl, rfl, rfl⟩

/-- Passes begin alike but for their limits. -/
theorem Obeys.begins_under {other : Config} (obeys : g.Obeys config) (obeysOther : h.Obeys other)
    (cadence : config.tick = .perRender) (cadenceOther : other.tick = .perRender)
    (now later : Nat) : ((g.beginRender now).under other).Mirrors (h.beginRender later) := by
  have begins := obeys.begins cadence now
  have raised : ((g.beginRender now).under other).Mirrors (.ofConfig other 0) :=
    ⟨rfl, rfl, rfl, begins.calls, begins.fallbacksShown, begins.halted⟩
  exact raised.trans (obeysOther.begins cadenceOther later).symm

end Guard

/-- The pass with the limits of a configuration. -/
def Pass.under (config : Config) (p : Pass) : Pass :=
  { p with guard := p.guard.under config }

/-- At the gate the guard counts, and if it stops a component, a note is written about the limit. -/
theorem Render.run_gate (c : Component) (depth : Nat) (p : Pass) :
    ∃ result notes, (gate c depth).run.run p = (result, {
        registry := p.registry
        guard := (p.guard.enter depth).2
        journal := { p.journal with
          toDiagnostics := Note.writeAll notes p.journal.toDiagnostics } }) ∧
      ∀ note ∈ notes, note.kind.isLimit = true := by
  cases decision : (p.guard.enter depth).1 with
  | proceed => exact ⟨_, [], run_gate_proceed decision, nofun⟩
  | halted =>
      exact ⟨_, [.once .frameBudgetExceeded _ _], run_gate_halted decision,
        List.forall_mem_singleton.2 rfl⟩
  | depthExceeded shown =>
      exact ⟨_, [.once .depthExceeded _ _], run_gate_depthExceeded decision,
        List.forall_mem_singleton.2 rfl⟩

theorem Render.guard_gate (c : Component) (depth : Nat) (p : Pass) :
    ((gate c depth).run.run p).2.guard = (p.guard.enter depth).2 := by
  obtain ⟨result, notes, run, -⟩ := run_gate c depth p
  rw [run]

/-- What is kept whatever is written is kept by whatever rendering is composed of. -/
theorem Rendering.keeps_of_written {files : Files} {holds : Pass → Prop}
    (faithful : ∀ p, holds p → p.journal.scripts.Faithful)
    (written : ∀ (p q : Pass) (notes : List Note), holds p → q.journal.scripts.Faithful →
      q.journal.toDiagnostics = Note.writeAll notes p.journal.toDiagnostics → holds q) :
    Congruence files fun x _ => Keeps holds x := by
  apply keeps_congruence
  · rintro α act ⟨result, notes, writes, -⟩ p has
    obtain ⟨scripts, kept, run⟩ := writes p.journal (faithful p has)
    rw [run_logged, run]
    exact written p _ notes has kept rfl
  · exact fun kind p has => written p _ [] has (faithful p has) rfl
  · intro c depth p has
    obtain ⟨result, notes, run, -⟩ := Render.run_gate c depth p
    rw [run]
    exact written p _ notes has (faithful p has) rfl

theorem Rendering.obeys_congruence (files : Files) (config : Config) :
    Congruence files fun x _ => Keeps (fun p => p.guard.Obeys config) x :=
  keeps_congruence (fun _ _ obeys => obeys) (fun _ _ obeys => obeys) fun c depth p obeys => by
    rw [Render.guard_gate]
    exact obeys.enters (p.guard.enters depth)

namespace Interpreter

/-- What an interpreter does in a pass. -/
def rendering (files : Files) (request : Request) (i : Interpreter) : Rendering (List Node) :=
  Render.upTo ⟨files, i.config.devMode⟩ (i.guard.maxDepth + 1) request.root request.scope
    request.key {}

variable {files : Files} {i : Interpreter}

theorem rendering_related {related : {α : Type} → Rendering α → Rendering α → Prop}
    (rel : Rendering.Congruence files related) (request : Request) (i : Interpreter) :
    related (i.rendering files request) (i.rendering files request) := by
  let setting : Setting := ⟨files, i.config.devMode⟩
  have rel : Rendering.Congruence setting.files related := rel
  exact rel.upTo (i.guard.maxDepth + 1) {} request.root request.scope request.key

/-- What comes out of a pass comes out as well from a pass that mirrors its beginning. -/
theorem render_of_mirrors {p q : Pass} {now : Nat} {request : Request}
    {result : Except Halt (List Node)} (mirrors : p.Mirrors files (i.beginPass now))
    (run : (i.rendering files request).run.run p = (result, q)) :
    (i.render files now request).1 = .ofResult q.journal.toDiagnostics result ∧
      (i.render files now request).2.guard.calls = q.guard.calls := by
  obtain ⟨produced, after⟩ :=
    rendering_related (Rendering.mirrored_congruence files) request i p _ mirrors
  rw [run] at produced after
  have output : (i.render files now request).1 = .ofResult q.journal.toDiagnostics result := by
    rw [after.diagnostics, show result = _ from produced]
    rfl
  exact ⟨output, after.guard.calls.symm⟩

/-- A pass leaves the limits of the guard as they are. -/
theorem obeys_render {config : Config} (obeys : i.guard.Obeys config) (now : Nat)
    (request : Request) : (i.render files now request).2.guard.Obeys config := by
  have keeps := rendering_related (Rendering.obeys_congruence files config) request i
  exact keeps (i.beginPass now) (obeys.beginRender now)

/-- The guard of an interpreter is that of its configuration. -/
theorem Reached.obeys (reached : i.Reached files) : i.guard.Obeys i.config := by
  induction reached with
  | made config now registry => exact ⟨rfl, rfl, rfl, rfl⟩
  | ticked now _ ih => exact ih.reset now
  | registered history _ ih => exact ih
  | rendered now request _ ih => exact obeys_render ih now request

/-- What the interpreter has kept is what it should be, and its guard is that of its
configuration. -/
structure Intact (files : Files) (i : Interpreter) : Prop extends i.Sound files where
  obeys : i.guard.Obeys i.config

theorem Reached.intact (reached : i.Reached files) : i.Intact files :=
  ⟨reached.sound, reached.obeys⟩

/-- With the same registrations and limits, passes of two interpreters mirror each other. -/
theorem Intact.mirrors_under {j : Interpreter} (intact : i.Intact files)
    (intactOther : j.Intact files) (constant : i.registry.Constant)
    (alike : Registry.Alike files i.registry j.registry) (cadence : i.config.tick = .perRender)
    (cadenceOther : j.config.tick = .perRender) (now later : Nat) :
    ((i.beginPass now).under j.config).Mirrors files (j.beginPass later) where
  sound := ⟨intact.coherent, intact.scripts⟩
  soundOther := intactOther.beginPass later
  constant := constant
  registry := alike
  guard := intact.obeys.begins_under intactOther.obeys cadence cadenceOther now later
  diagnostics := rfl

end Interpreter

/-! ## Entries of what has been warned about -/

namespace Pass

/-- The scripts of the pass are the compiled ones, and whatever has been warned about is listed. -/
structure Logs (p : Pass) : Prop where
  scripts : p.journal.scripts.Faithful
  listed : p.journal.Listed

end Pass

theorem Rendering.logs_congruence (files : Files) :
    Congruence files fun x _ => Keeps Pass.Logs x :=
  keeps_of_written (fun _ logs => logs.scripts) fun _ _ notes logs kept written =>
    ⟨kept, written ▸ logs.listed.writeAll notes⟩

end UiDoc
