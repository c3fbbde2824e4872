import UiDoc.Proofs.Rendering.Invariants
import UiDoc.Proofs.Rendering.NodeCount

/-!
# Passes do not see earlier passes

The guard, the compiled scripts, the memo and the parsed definitions outlive a pass, even one that
has been halted.  If each pass has counters of its own, none of these is ever seen: every pass comes
out as the first one of an interpreter that has just been made, with the same registrations.
-/

namespace UiDoc

open Registry (Alike)

namespace Registry

variable {files : Files} {r : Registry}

/-- To register keeps the memo justified. -/
theorem Operation.coherent_register (op : Operation) (coherent : Coherent files r) :
    Coherent files (op.register files r) := by
  cases op with
  | preload | resolve name | has name => exact coherent
  | entry e => exact coherent_registerEntry coherent e
  | fixed name renderable => exact Registry.coherent_register coherent name renderable
  | module path loader => exact coherent_registerModule path loader r
  | definition | component | file => exact coherent_registerDefinition coherent _ _
  | directory path => exact coherent_registerDirectory coherent path
  | icons names => exact coherent_registerIcons coherent names

theorem coherent_registered (history : List Operation) (coherent : Coherent files r) :
    Coherent files (r.registered files history) := by
  induction history generalizing r with
  | nil => exact coherent
  | cons op rest ih => exact ih (op.coherent_register coherent)

end Registry

namespace Interpreter

/-- The interpreter after passes, each at a time and with a request. -/
def afterPasses (files : Files) (passes : List (Nat × Request)) (i : Interpreter) : Interpreter :=
  passes.foldl (fun i pass => (i.render files pass.1 pass.2).2) i

variable {files : Files} {i j : Interpreter}

/-- An interpreter over a registry whose memo is justified is intact when it has just been made. -/
theorem intact_ofConfig {r : Registry} (coherent : Registry.Coherent files r) (config : Config)
    (made : Nat) : (ofConfig config r made).Intact files where
  coherent := coherent
  scripts := Script.Cache.faithful_empty
  obeys := ⟨rfl, rfl, rfl, rfl⟩

/-! ## One pass -/

/-- A pass leaves the interpreter intact, halted or not. -/
theorem Intact.render (intact : i.Intact files) (now : Nat) (request : Request) :
    (i.render files now request).2.Intact files :=
  ⟨intact.toSound.render now request, obeys_render intact.obeys now request⟩

/-- A pass registers nothing. -/
theorem Intact.registry_render (intact : i.Intact files) (now : Nat) (request : Request) :
    Alike files i.registry (i.render files now request).2.registry := by
  have follows := rendering_related (Rendering.follows_congruence files) request i
  exact (follows.leads (i.beginPass now) (intact.beginPass now)).registry

/-- Interpreters with the same registrations and the same configuration give the same output,
whatever they have done before. -/
theorem Intact.render_eq (intact : i.Intact files) (intactOther : j.Intact files)
    (constant : i.registry.Constant) (alike : Alike files i.registry j.registry)
    (same : i.config = j.config) (cadence : i.config.tick = .perRender) (now later : Nat)
    (request : Request) :
    (i.render files now request).1 = (j.render files later request).1 := by
  have mirrors : (i.beginPass now).Mirrors files (j.beginPass later) := {
    sound := intact.beginPass now
    soundOther := intactOther.beginPass later
    constant := constant
    registry := alike
    guard := (intact.obeys.begins cadence now).trans
      (same ▸ intactOther.obeys.begins (same ▸ cadence) later).symm
    diagnostics := rfl }
  have equal : i.rendering files request = j.rendering files request := by
    rw [rendering, rendering, intact.obeys.maxDepth, intactOther.obeys.maxDepth, same]
  cases run : (i.rendering files request).run.run (i.beginPass now) with
  | mk result q =>
      rw [render_of_run run]
      rw [equal] at run
      exact (render_of_mirrors mirrors run).1.symm

/-! ## Many passes -/

/-- What passes leave as it was: the configuration and the registrations. -/
theorem Intact.afterPasses (intact : i.Intact files) (passes : List (Nat × Request)) :
    (i.afterPasses files passes).Intact files ∧ (i.afterPasses files passes).config = i.config ∧
      Alike files i.registry (i.afterPasses files passes).registry := by
  induction passes generalizing i with
  | nil => exact ⟨intact, rfl, .refl files _⟩
  | cons pass rest ih =>
      obtain ⟨intactLater, config, alike⟩ := ih (intact.render pass.1 pass.2)
      exact ⟨intactLater, config, (intact.registry_render pass.1 pass.2).trans alike⟩

/-- Whatever has been asked of a registry and rendered with it before, the next pass gives the
output of a first pass over a registry with the same registrations and nothing else. -/
theorem render_afterPasses {start : Registry} (opening : Registry.Opening files start)
    (history : List Registry.Operation)
    (constant : (start.registered files history).Constant) (config : Config)
    (cadence : config.tick = .perRender) (made : Nat) (passes : List (Nat × Request))
    (now madeFresh later : Nat) (request : Request) :
    let used := (ofConfig config (start.after files history) made).afterPasses files passes
    let fresh := ofConfig config (start.registered files history) madeFresh
    (used.render files now request).1 = (fresh.render files later request).1 := by
  intro used fresh
  have unused : Registry.Coherent files start := .of_memo_eq_nil opening.memo_eq_nil
  obtain ⟨registers, coherent⟩ := Registry.after_run history (.refl files start) unused
  obtain ⟨intact, same, passed⟩ := (intact_ofConfig coherent config made).afterPasses passes
  have intactFresh : fresh.Intact files :=
    intact_ofConfig (Registry.coherent_registered history unused) config madeFresh
  have alike : Alike files fresh.registry used.registry := registers.symm.trans passed
  have cadenceFresh : fresh.config.tick = .perRender := cadence
  exact (intactFresh.render_eq intact constant alike same.symm cadenceFresh later now request).symm

/-- A pass after one that has been halted inside of an instance. -/
theorem render_afterPasses_halted :
    let history : List Registry.Operation :=
      [.definition "Card" "\x7b\"type\": \"section\"\x7d", .resolve "Card"]
    let config : Config := { maxCallsPerTick := 2, tick := .perRender }
    let card : Component := { kind := "Card" }
    let stack : Component := { kind := "div", children := some (.nodes [card]) }
    let used := ofConfig config (Registry.builtin.after {} history) 0
    let fresh := ofConfig config (Registry.builtin.registered {} history) 0
    (used.render {} 1 ⟨stack, .obj [], none, none⟩).1.status = .halted ∧
      ((used.afterPasses {} [(1, ⟨stack, .obj [], none, none⟩)]).render {} 2
        ⟨card, .obj [], none, none⟩).1.status = .rendered ∧
      ((used.afterPasses {} [(1, ⟨stack, .obj [], none, none⟩)]).render {} 2
        ⟨card, .obj [], none, none⟩).1 = (fresh.render {} 0 ⟨card, .obj [], none, none⟩).1 := by
  intro history config card stack used fresh
  have constant : (Registry.builtin.registered {} history).Constant :=
    fun path m found => nomatch found
  exact ⟨by decide +kernel, by decide +kernel,
    render_afterPasses .builtin history constant config rfl 0 _ 2 0 0 _⟩

end Interpreter

end UiDoc
