import UiDoc.Proofs.Rendering.NodeCount

/-!
# How many fallbacks a pass shows

The guard counts each fallback once, when it is decided to show it.  A slot places the fallbacks of
an instance again each time, and for these nothing is counted: only where no definition places its
slot more than once does the limit hold for what is shown.
-/

namespace UiDoc

namespace Meter

/-- The fallbacks that the guard has let through.  A component that is interpreted adds none. -/
def fallbacks : Meter := ⟨0, Guard.fallbacksShown, Guard.maxFallbacks⟩

theorem fallbacks_counts : fallbacks.Counts := by
  intro depth g decision h enters going
  cases enters with
  | stillHalted running | halts running exhausted => exact absurd rfl going
  | fallback running left deep shown =>
      exact ⟨1, ⟨rfl, rfl, Nat.le_trans shown (Nat.le_max_right _ _)⟩, Nat.le_refl _⟩
  | hidden running left deep spent | proceeds running left shallow =>
      exact ⟨0, ⟨rfl, rfl, Nat.le_max_left _ _⟩, Nat.le_refl _⟩

end Meter

/-- How many fallbacks there are. -/
def Output.fallbacks (o : Output) : Nat :=
  Node.listTally 0 o.nodes

namespace Guard

variable {g : Guard}

/-- Where each pass has counters of its own, a pass begins without fallbacks. -/
theorem fallbacksShown_beginRender (cadence : g.cadence = .perRender) (now : Nat) :
    (g.beginRender now).fallbacksShown = 0 := by
  simp only [beginRender, cadence, reset]

theorem maxFallbacks_beginRender (cadence : g.cadence = .perRender) (now : Nat) :
    (g.beginRender now).maxFallbacks = g.maxFallbacks := by
  simp only [beginRender, cadence, reset]

end Guard

namespace Interpreter

/-- If no definition places its slot more than once, a pass shows no more fallbacks than the guard
has counted, and no more than there may be. -/
theorem fallbacks_render_le {files : Files} {i : Interpreter}
    (cadence : i.guard.cadence = .perRender)
    (defines : i.registry.Defines files fun definition => definition.slotUses ≤ 1) (now : Nat)
    (request : Request) :
    (i.render files now request).1.fallbacks ≤
      min (i.render files now request).2.guard.fallbacksShown i.guard.maxFallbacks := by
  have covered := render_covered (Account.single_sound Meter.fallbacks_counts) defines now request
    (.inr rfl)
  simp only [Account.single, Meter.fallbacks, Guard.fallbacksShown_beginRender cadence,
    Guard.maxFallbacks_beginRender cadence] at covered
  exact covered

/-- Three components inside of each other. -/
def deepChild : Component :=
  { kind := "p", children := some (.nodes [
    { kind := "p", children := some (.nodes [{ kind := "p" }]) }]) }

/-- A card around components that are too deep, of which one may be shown. -/
theorem fallbacks_render_le_card :
    let card : Component := { kind := "section", children := some (.nodes [{ kind := "Slot" }]) }
    let registry := Registry.builtin.registerDefinition "Card" (.parsed card)
    let config : Config := { maxDepth := 2, maxFallbacksPerTick := 1, tick := .perRender }
    let i := Interpreter.ofConfig config registry 0
    let root : Component := { kind := "Card", children := some (.nodes [deepChild, deepChild]) }
    let request : Request := { root, data := .obj [] }
    i.guard.cadence = .perRender ∧
      registry.Defines {} (fun definition => definition.slotUses ≤ 1) ∧
      (i.render {} 0 request).1.fallbacks = 1 ∧
      (i.render {} 0 request).1.fallbacks ≤
        min (i.render {} 0 request).2.guard.fallbacksShown i.guard.maxFallbacks := by
  intro card registry config i root request
  have defines : registry.Defines {} (fun definition => definition.slotUses ≤ 1) := by
    apply (Registry.defines_builtin _ _).registerDefinition "Card"
    intro definition parsed
    cases parsed
    decide
  exact ⟨rfl, defines, by decide +kernel, fallbacks_render_le rfl defines 0 request⟩

/-- A definition that places its slot twice shows the only fallback that there may be twice. -/
theorem fallbacks_render_gt :
    let twice : Component :=
      { kind := "div", children := some (.nodes [{ kind := "Slot" }, { kind := "Slot" }]) }
    let registry := Registry.builtin.registerDefinition "Twice" (.parsed twice)
    let config : Config := { maxDepth := 2, maxFallbacksPerTick := 1, tick := .perRender }
    let i := Interpreter.ofConfig config registry 0
    let root : Component := { kind := "Twice", children := some (.nodes [deepChild]) }
    let request : Request := { root, data := .obj [] }
    (i.render {} 0 request).2.guard.fallbacksShown = 1 ∧ i.guard.maxFallbacks = 1 ∧
      (i.render {} 0 request).1.fallbacks = 2 := by
  decide +kernel

end Interpreter

end UiDoc
