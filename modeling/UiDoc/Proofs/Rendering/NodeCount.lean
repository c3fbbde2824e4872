import Mathlib.Algebra.Ring.Nat
import UiDoc.Interpreter
import UiDoc.Proofs.Rendering.Accounting

/-!
# How many nodes a pass produces

The guard bounds the components that are interpreted, and not the nodes: a slot places all nodes of
an instance again each time, for a single call.  So each call may double what has been produced.
Where no definition places its slot more than once, every node has been paid for by a call.
-/

namespace UiDoc

/-! ## Two accounts -/

namespace Account

/-- A power of two is one more than something. -/
theorem exists_two_pow (n : Nat) : ∃ rest, 2 ^ n = rest + 1 :=
  Nat.exists_eq_add_of_lt (Nat.two_pow_pos n) |>.imp fun rest same => by omega

/-- With each call, what stands in the slot and has been produced doubles at most. -/
def doubling : Account where
  meter := .calls
  holds _ := True
  bound _ slot made count := 1 + slot + count ≤ (1 + slot) * 2 ^ made

theorem doubling_append {slot made later count further : Nat}
    (first : 1 + slot + count ≤ (1 + slot) * 2 ^ made)
    (second : 1 + slot + further ≤ (1 + slot) * 2 ^ later) :
    1 + slot + (count + further) ≤ (1 + slot) * 2 ^ (made + later) := by
  rcases exists_two_pow made with ⟨x, powerMade⟩
  rcases exists_two_pow later with ⟨y, powerLater⟩
  rw [powerMade, Nat.mul_succ] at first
  rw [powerLater, Nat.mul_succ] at second
  have early : count ≤ (1 + slot) * x := by omega
  have late : further ≤ (1 + slot) * y := by omega
  calc
    1 + slot + (count + further)
    _ ≤ (1 + slot) + ((1 + slot) * x + (1 + slot) * y) := by omega
    _ ≤ (1 + slot) + ((1 + slot) * x + (1 + slot) * y) + (1 + slot) * (x * y) :=
      Nat.le_add_right _ _
    _ = (1 + slot) * ((x + 1) * (y + 1)) := by grind
    _ = (1 + slot) * 2 ^ (made + later) := by rw [Nat.pow_add, powerMade, powerLater]

theorem doubling_fill {slot made later inner count : Nat}
    (filled : 1 + slot + inner ≤ (1 + slot) * 2 ^ made)
    (placed : 1 + inner + count ≤ (1 + inner) * 2 ^ later) :
    1 + slot + count ≤ (1 + slot) * 2 ^ (made + later) := by
  rcases exists_two_pow later with ⟨y, powerLater⟩
  rw [powerLater, Nat.mul_succ] at placed
  have stands : 1 + inner ≤ (1 + slot) * 2 ^ made := by omega
  have started : 1 + slot ≤ (1 + slot) * 2 ^ made := Nat.le_mul_of_pos_right _ (Nat.two_pow_pos _)
  calc
    1 + slot + count
    _ ≤ 1 + slot + (1 + inner) * y := by omega
    _ ≤ (1 + slot) * 2 ^ made + (1 + slot) * 2 ^ made * y :=
      Nat.add_le_add started (Nat.mul_le_mul_right y stands)
    _ = (1 + slot) * (2 ^ made * (y + 1)) := by grind
    _ = (1 + slot) * 2 ^ (made + later) := by rw [Nat.pow_add, powerLater]

theorem doubling_sound : doubling.Sound where
  counts := Meter.calls_counts
  nothing slot := by simp [doubling]
  mono := by
    intro uses more slot made later count _ longer covered
    exact Nat.le_trans covered (Nat.mul_le_mul_left _ (Nat.pow_le_pow_right (by decide) longer))
  element := by
    intro uses slot made count covered
    have one : 1 + slot + 1 ≤ (1 + slot) * 2 ^ 1 := by omega
    exact doubling_append one covered
  fallback slot := by simp only [doubling]; omega
  slot slot := by simp only [doubling, Meter.calls]; omega
  both := doubling_append
  again := doubling_append
  fill := fun _ => doubling_fill

/-- The meter pays for everything but what stands in the slot, which is placed once at most. -/
def single (meter : Meter) : Account where
  meter
  holds definition := definition.slotUses ≤ 1
  bound uses slot made count := uses ≤ 1 ∨ slot = 0 → count ≤ made + uses * slot

theorem single_sound {meter : Meter} (counts : meter.Counts) : (single meter).Sound where
  counts := counts
  nothing slot := by simp [single]
  mono := by
    intro uses more slot made later count fewer longer covered once
    have covered : count ≤ made + uses * slot := covered (by omega)
    have placed : uses * slot ≤ more * slot := Nat.mul_le_mul_right slot fewer
    omega
  element := by
    intro uses slot made count covered once
    have covered : count ≤ made + uses * slot := covered once
    simp only [single]
    omega
  fallback slot := by simp [single]
  slot slot := by simp [single]
  both := by
    intro uses more slot made later count further covered coveredLater once
    have front : count ≤ made + uses * slot := covered (by omega)
    have back : further ≤ later + more * slot := coveredLater (by omega)
    rw [Nat.add_mul]
    omega
  again := by
    intro uses slot made later count further covered coveredLater once
    have nothing : uses * slot = 0 := Nat.mul_eq_zero.2 (by omega)
    have round : count ≤ made + uses * slot := covered (by omega)
    have rounds : further ≤ later + 2 * uses * slot := coveredLater once
    omega
  fill := by
    intro definition uses slot made later inner count holds filled covered once
    have carried : inner ≤ made + uses * slot := filled once
    have placed : count ≤ later + definition.slotUses * inner := covered (.inl holds)
    have fewer : definition.slotUses * inner ≤ 1 * inner := Nat.mul_le_mul_right inner holds
    omega

end Account

/-! ## Passes -/

namespace Output

/-- How many elements and fallbacks there are. -/
def count (o : Output) : Nat :=
  Node.listTally 1 o.nodes

@[simp] theorem nodes_ofResult_ok (log : Diagnostics) (nodes : List Node) :
    (ofResult log (.ok nodes)).nodes = nodes := by
  cases nodes <;> rfl

@[simp] theorem diagnostics_ofResult (log : Diagnostics) (result : Except Halt (List Node)) :
    (ofResult log result).diagnostics = log := by
  match result with
  | .ok [] | .ok (_ :: _) | .error .halt => rfl

end Output

@[simp] theorem Guard.maxCalls_beginRender (now : Nat) (g : Guard) :
    (g.beginRender now).maxCalls = g.maxCalls := by
  simp only [beginRender]
  split
  · rfl
  · split <;> rfl
  · rfl

namespace Interpreter

/-- How many components the guard counts during a pass. -/
def entries (files : Files) (now : Nat) (request : Request) (i : Interpreter) : Nat :=
  (i.render files now request).2.guard.calls - (i.guard.beginRender now).calls

variable {files : Files} {now : Nat} {request : Request} {i : Interpreter}

theorem render_of_run {result : Except Halt (List Node)} {p : Pass}
    (run : (Render.upTo ⟨files, i.config.devMode⟩ (i.guard.maxDepth + 1) request.root request.scope
      request.key {}).run.run (i.beginPass now) = (result, p)) :
    i.render files now request = (.ofResult p.journal.toDiagnostics result,
      { i with guard := p.guard, registry := p.registry, scripts := p.journal.scripts }) := by
  simp only [render, run]

/-- An account covers the output of a pass by what the meter has gone on during the pass. -/
theorem render_covered {a : Account} (sound : a.Sound) (defines : i.registry.Defines files a.holds)
    (now : Nat) (request : Request) :
    let before := i.guard.beginRender now
    let made := a.meter.read (i.render files now request).2.guard - a.meter.read before
    a.bound request.root.slotUses 0 (min made (a.meter.limit before))
      (Node.listTally a.meter.weight (i.render files now request).1.nodes) := by
  let setting : Setting := ⟨files, i.config.devMode⟩
  have covers : a.Covers setting.files (Render.upTo setting (i.guard.maxDepth + 1)) := sound.upTo _
  intro before
  cases run : (Render.upTo ⟨files, i.config.devMode⟩ (i.guard.maxDepth + 1) request.root
      request.scope request.key {}).run.run (i.beginPass now) with
  | mk result p =>
      rw [render_of_run run]
      intro made
      cases result with
      | error h => exact sound.mono (Nat.zero_le _) (Nat.zero_le _) (sound.nothing 0)
      | ok nodes =>
          rcases covers _ _ _ _ _ nodes p defines run with ⟨-, counted, runs, covered⟩
          have read : a.meter.read p.guard = a.meter.read before + counted := runs.read
          have within : a.meter.read p.guard ≤ max (a.meter.read before) (a.meter.limit before) :=
            runs.within
          rw [Output.nodes_ofResult_ok]
          exact sound.mono (Nat.le_refl _) (by simp only [made]; omega) covered

/-- A pass produces less than two to the power of the components that it may count, and no more than
these if no definition places its slot more than once. -/
theorem count_render_le (files : Files) (now : Nat) (request : Request) (i : Interpreter) :
    let count := (i.render files now request).1.count
    let paid := min (i.entries files now request) i.guard.maxCalls
    count < 2 ^ paid ∧
      (i.registry.Defines files (fun definition => definition.slotUses ≤ 1) → count ≤ paid) := by
  intro count paid
  have limit := i.guard.maxCalls_beginRender now
  constructor
  · have covered := render_covered Account.doubling_sound (Registry.defines_true files i.registry)
      now request
    simp only [Account.doubling, Meter.calls, limit] at covered
    change 1 + 0 + count ≤ (1 + 0) * 2 ^ paid at covered
    omega
  · intro defines
    have covered := render_covered (Account.single_sound Meter.calls_counts) defines now request
      (.inr rfl)
    simp only [Account.single, Meter.calls, limit] at covered
    exact covered

/-- A card around two paragraphs. -/
theorem count_render_le_card :
    let card : Component := { kind := "section", children := some (.nodes [{ kind := "Slot" }]) }
    let registry := Registry.builtin.registerDefinition "Card" (.parsed card)
    let i := Interpreter.ofConfig { tick := .perRender } registry 0
    let root : Component :=
      { kind := "Card", children := some (.nodes [{ kind := "p" }, { kind := "p" }]) }
    let request : Request := { root, data := .obj [] }
    registry.Defines {} (fun definition => definition.slotUses ≤ 1) ∧
      (i.render {} 0 request).1.count = 3 ∧ i.entries {} 0 request = 5 ∧
      (i.render {} 0 request).1.count ≤ min (i.entries {} 0 request) i.guard.maxCalls := by
  intro card registry i root request
  have defines : registry.Defines {} (fun definition => definition.slotUses ≤ 1) := by
    apply (Registry.defines_builtin _ _).registerDefinition "Card"
    intro definition parsed
    cases parsed
    decide
  exact ⟨defines, by decide +kernel, by decide +kernel,
    (count_render_le {} 0 request i).2 defines⟩

/-- A definition that places its slot twice can produce more nodes than there are calls. -/
theorem count_render_gt :
    let twice : Component :=
      { kind := "div", children := some (.nodes [{ kind := "Slot" }, { kind := "Slot" }]) }
    let registry := Registry.builtin.registerDefinition "Twice" (.parsed twice)
    let i := Interpreter.ofConfig { maxCallsPerTick := 8, tick := .perRender } registry 0
    let root : Component := { kind := "Twice", children := some (.nodes
      [{ kind := "p" }, { kind := "p" }, { kind := "p" }, { kind := "p" }]) }
    let request : Request := { root, data := .obj [] }
    i.entries {} 0 request = 8 ∧ i.guard.maxCalls = 8 ∧ (i.render {} 0 request).1.count = 9 := by
  decide +kernel

end Interpreter

end UiDoc
