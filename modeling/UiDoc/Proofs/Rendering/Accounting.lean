import UiDoc.Proofs.Guard
import UiDoc.Proofs.Registry.Definitions
import UiDoc.Proofs.Rendering.Runs
import UiDoc.Proofs.Rendering.Tally

/-!
# Accounting for nodes

Something that the guard counts pays for the nodes that are produced.  An account bounds what can be
produced for what the meter reads; that it covers whatever rendering is composed of is enough for it
to cover a pass.  Only slots are difficult: they place nodes that have been paid for before.
-/

namespace UiDoc

/-! ## Meters -/

/-- What a component pays at the guard, where it pays `weight` if it is interpreted. -/
def Decision.price (weight : Nat) : Decision → Nat
  | .proceed => weight
  | .depthExceeded shown => shown.toNat
  | .halted => 0

/-- Something that the guard counts. -/
structure Meter where
  /-- What is counted for a component that is interpreted. -/
  weight : Nat
  read : Guard → Nat
  limit : Guard → Nat

namespace Meter

/-- The meter has gone on by so much, and not beyond its limit. -/
structure Runs (meter : Meter) (made : Nat) (g h : Guard) : Prop where
  limit : meter.limit h = meter.limit g
  read : meter.read h = meter.read g + made
  within : meter.read h ≤ max (meter.read g) (meter.limit g)

/-- Every component pays its price, unless it is halted. -/
def Counts (meter : Meter) : Prop :=
  ∀ depth g decision h, Guard.Enters depth g decision h → decision ≠ .halted →
    ∃ made, meter.Runs made g h ∧ decision.price meter.weight ≤ made

variable {meter : Meter} {g h k : Guard} {made more : Nat}

theorem Runs.refl (meter : Meter) (g : Guard) : meter.Runs 0 g g :=
  ⟨rfl, rfl, Nat.le_max_left _ _⟩

theorem Runs.trans (first : meter.Runs made g h) (second : meter.Runs more h k) :
    meter.Runs (made + more) g k where
  limit := second.limit.trans first.limit
  read := by rw [second.read, first.read, Nat.add_assoc]
  within := by
    have before := first.within
    have after := second.within
    rw [first.limit] at after
    omega

/-- The calls of the guard. -/
def calls : Meter := ⟨1, Guard.calls, Guard.maxCalls⟩

theorem calls_counts : calls.Counts := by
  intro depth g decision h enters going
  cases enters with
  | stillHalted running | halts running exhausted => exact absurd rfl going
  | fallback running left deep shown =>
      exact ⟨1, ⟨rfl, rfl, Nat.le_trans left (Nat.le_max_right _ _)⟩, Nat.le_refl _⟩
  | hidden running left deep spent =>
      exact ⟨1, ⟨rfl, rfl, Nat.le_trans left (Nat.le_max_right _ _)⟩, Nat.zero_le _⟩
  | proceeds running left shallow =>
      exact ⟨1, ⟨rfl, rfl, Nat.le_trans left (Nat.le_max_right _ _)⟩, Nat.le_refl _⟩

end Meter

/-! ## Accounts -/

/-- A bound on the nodes that are produced, by how often the slot is placed, how much stands in it,
and how much the meter has gone on meanwhile. -/
structure Account where
  meter : Meter
  /-- What is asked of each definition. -/
  holds : Component → Prop
  bound : (uses slot made count : Nat) → Prop

namespace Account

/-- The account covers whatever rendering is composed of. -/
structure Sound (a : Account) : Prop where
  counts : a.meter.Counts
  nothing (slot : Nat) : a.bound 0 slot 0 0
  mono {uses more slot made later count : Nat} :
    uses ≤ more → made ≤ later → a.bound uses slot made count → a.bound more slot later count
  element {uses slot made count : Nat} : a.bound uses slot made count →
    a.bound uses slot (a.meter.weight + made) (a.meter.weight + count)
  fallback (slot : Nat) : a.bound 0 slot 1 1
  slot (slot : Nat) : a.bound 1 slot a.meter.weight slot
  both {uses more slot made later count further : Nat} :
    a.bound uses slot made count → a.bound more slot later further →
      a.bound (uses + more) slot (made + later) (count + further)
  /-- One more round of a loop. -/
  again {uses slot made later count further : Nat} :
    a.bound uses slot made count → a.bound (2 * uses) slot later further →
      a.bound (2 * uses) slot (made + later) (count + further)
  /-- What an instance produced stands in the slot of its definition. -/
  fill {definition : Component} {uses slot made later inner count : Nat} :
    a.holds definition → a.bound uses slot made inner →
      a.bound definition.slotUses inner later count → a.bound uses slot (made + later) count

variable (a : Account) (files : Files) {α β : Type}

/-- If the act has a result, then this fits what the meter has gone on meanwhile. -/
def Produces (x : Rendering α) (fits : α → (made : Nat) → Prop) : Prop :=
  ∀ p result q, p.registry.Defines files a.holds → x.run.run p = (.ok result, q) →
    q.registry.Defines files a.holds ∧
      ∃ made, a.meter.Runs made p.guard q.guard ∧ fits result made

/-- The account covers the nodes that the act results in. -/
def Yields (x : Rendering (List Node)) (uses slot : Nat) : Prop :=
  a.Produces files x fun nodes made =>
    a.bound uses slot made (Node.listTally a.meter.weight nodes)

/-- The account covers the nodes together with the price of a component that is interpreted. -/
def Admits (x : Rendering (List Node)) (uses slot : Nat) : Prop :=
  a.Produces files x fun nodes made =>
    a.bound uses slot (a.meter.weight + made) (Node.listTally a.meter.weight nodes)

/-- How much stands in the slot of a place. -/
def slotAt (site : Site) : Nat :=
  Node.listTally a.meter.weight (site.slot.getD [])

/-- The account covers every component at every place. -/
def Covers (below : Renderer) : Prop :=
  ∀ c scope key site, a.Yields files (below c scope key site) c.slotUses (a.slotAt site)

section

variable {a files}

namespace Produces

variable {x : Rendering α} {f : α → Rendering β} {fits : α → Nat → Prop} {later : β → Nat → Prop}

theorem pure {result : α} (fit : fits result 0) :
    a.Produces files (Pure.pure result) fits := by
  intro p _ q defines run
  cases run
  exact ⟨defines, 0, .refl _ _, fit⟩

theorem mono {weaker : α → Nat → Prop} (produces : a.Produces files x fits)
    (weaken : ∀ result made, fits result made → weaker result made) :
    a.Produces files x weaker := by
  intro p result q defines run
  rcases produces p result q defines run with ⟨definesNext, made, runs, fit⟩
  exact ⟨definesNext, made, runs, weaken result made fit⟩

theorem bind (first : a.Produces files x fits)
    (second : ∀ result made, fits result made →
      a.Produces files (f result) fun last more => later last (made + more)) :
    a.Produces files (x >>= f) later := by
  intro p last r defines run
  rcases Rendering.run_bind_eq_ok.1 run with ⟨result, q, runFirst, runSecond⟩
  rcases first p result q defines runFirst with ⟨definesNext, made, runs, fit⟩
  obtain ⟨definesLast, more, runsNext, fitLast⟩ :=
    second result made fit q last r definesNext runSecond
  exact ⟨definesLast, made + more, runs.trans runsNext, fitLast⟩

/-- An act that pays nothing comes first. -/
theorem bind_free {known : α → Prop}
    (first : a.Produces files x fun result made => made = 0 ∧ known result)
    (second : ∀ result, known result → a.Produces files (f result) later) :
    a.Produces files (x >>= f) later := by
  apply first.bind
  intro result made free
  rcases free with ⟨rfl, fit⟩
  simpa only [Nat.zero_add] using second result fit

theorem logged {act : Logged α} {known : α → Prop} (fit : ∀ j, known (act.run j).1) :
    a.Produces files (Rendering.logged act) fun result made => made = 0 ∧ known result := by
  intro p result q defines run
  rw [Rendering.run_logged] at run
  cases run
  exact ⟨defines, 0, .refl _ _, rfl, fit _⟩

theorem bind_logged {act : Logged β} {g : β → Rendering α}
    (second : ∀ result, a.Produces files (g result) fits) :
    a.Produces files (Rendering.logged act >>= g) fits := by
  have free : a.Produces files (Rendering.logged act) fun _ made => made = 0 ∧ True :=
    .logged fun _ => trivial
  exact .bind_free free fun result _ => second result

theorem resolve (kind : String) :
    a.Produces files (Rendering.resolve files kind) fun found made =>
      made = 0 ∧ ∀ renderable, found = some renderable → renderable.Defines a.holds := by
  intro p result q defines run
  rw [Rendering.run_resolve] at run
  cases run
  rcases defines.resolve kind with ⟨definesNext, has⟩
  exact ⟨definesNext, 0, .refl _ _, rfl, has⟩

theorem warnDeprecated (kind : String) :
    a.Produces files (Render.warnDeprecated kind) fun _ made => made = 0 ∧ True := by
  intro p result q defines run
  rw [Render.run_warnDeprecated, Rendering.run_logged] at run
  cases run
  exact ⟨defines, 0, .refl _ _, rfl, trivial⟩

end Produces

namespace Sound

open Render

variable {setting : Setting} {below : Renderer}

/-- Nothing is covered wherever it stands. -/
theorem yields_nil (sound : a.Sound) (uses slot : Nat) :
    a.Yields files (pure []) uses slot :=
  .pure (sound.mono (Nat.zero_le _) (Nat.le_refl _) (sound.nothing slot))

theorem yields_text (sound : a.Sound) (scope : Scope) (template : String) (uses slot : Nat) :
    a.Yields files (text scope template) uses slot :=
  .bind_logged fun _ => .pure (sound.mono (Nat.zero_le _) (Nat.le_refl _) (sound.nothing slot))

/-- The nodes of two acts, one after the other. -/
theorem yields_append (sound : a.Sound) {x y : Rendering (List Node)} {uses more slot : Nat}
    (front : a.Yields files x uses slot) (back : a.Yields files y more slot) :
    a.Yields files (do return (← x) ++ (← y)) (uses + more) slot := by
  apply Produces.bind front
  intro first made fit
  apply Produces.bind back
  intro second later fitBack
  apply Produces.pure
  simp only [Node.listTally_append, Nat.add_zero]
  exact sound.both fit fitBack

/-- A round of a loop, and the rounds after it. -/
theorem yields_slot (sound : a.Sound) {x y : Rendering (List Node)} {uses slot : Nat}
    (round : a.Yields files x uses slot) (rounds : a.Yields files y (2 * uses) slot)
    (key : String) :
    a.Yields files (do
      let inner ← x
      let outer ← y
      return .fragment key inner :: outer) (2 * uses) slot := by
  apply Produces.bind round
  intro inner made fit
  apply Produces.bind rounds
  intro outer later fitLater
  apply Produces.pure
  exact sound.again fit fitLater

theorem admits (sound : a.Sound) {x : Rendering (List Node)} {uses slot : Nat}
    (yields : a.Yields files x uses slot) : a.Admits files x uses slot := by
  apply yields.mono
  intro nodes made fit
  exact sound.mono (Nat.le_refl _) (Nat.le_add_left _ _) fit

theorem components (sound : a.Sound) (inner : a.Covers files below) (scope : Scope)
    (parent : String) (repeated : Bool) (site : Site) (index : Nat) (list : List Component) :
    a.Yields files (components below scope parent repeated site index list)
      (componentsSlotUses list) (a.slotAt site) := by
  induction list generalizing index with
  | nil => exact sound.yields_nil _ _
  | cons c rest ih => exact sound.yields_append (inner _ _ _ _) (ih (index + 1))

theorem branch (sound : a.Sound) (inner : a.Covers files below) (scope : Scope) (key : String)
    (site : Site) (content : Content) :
    a.Yields files (branch below scope key site content) content.slotUses (a.slotAt site) := by
  cases content with
  | text template => exact sound.yields_text _ _ _ _
  | nodes list => exact sound.components inner _ _ _ _ _ _
  | node c => exact inner _ _ _ _

theorem childList (sound : a.Sound) (inner : a.Covers files below) (c : Component) (scope : Scope)
    (parent : String) (repeated : Bool) (site : Site) :
    a.Yields files (childList below c scope parent repeated site) (childrenSlotUses c.children)
      (a.slotAt site) := by
  simp only [Render.childList]
  cases c.children with
  | none => exact sound.yields_nil _ _
  | some content =>
      cases content with
      | text template => exact sound.yields_text _ _ _ _
      | nodes list => exact sound.components inner _ _ _ _ _ _
      | node one =>
          have listed := sound.components inner scope parent repeated site 0 [one]
          simp only [componentsSlotUses, Nat.add_zero] at listed
          exact listed

/-- Each round of a loop is covered, if what is repeated counts twice. -/
theorem slots (sound : a.Sound) (inner : a.Covers files below) (c : Component) (scope : Scope)
    (key : String) (site : Site) (list : List Slot) :
    a.Yields files (slots below c scope key site list) (2 * childrenSlotUses c.children)
      (a.slotAt site) := by
  induction list with
  | nil => exact sound.yields_nil _ _
  | cons slot rest ih =>
      rw [Render.slots]
      dsimp only
      split
      · exact sound.yields_slot (sound.childList inner _ _ _ _ _) ih _
      · exact sound.yields_slot (sound.yields_nil _ _) ih _

theorem children (sound : a.Sound) (inner : a.Covers files below) (c : Component) (scope : Scope)
    (key : String) (site : Site) :
    a.Yields files (children setting below c scope key site) c.innerSlotUses (a.slotAt site) := by
  simp only [Render.children, Component.innerSlotUses]
  cases c.loop with
  | none => exact sound.childList inner _ _ _ _ _
  | some l => exact .bind_logged fun items => sound.slots inner c scope key site items

/-- An instance is covered, since its children are covered and fill the slot of its definition. -/
theorem composite (sound : a.Sound) (inner : a.Covers files below) (c : Component) (name : String)
    {definition : Component} (holds : a.holds definition) (props : Record Json)
    (handlers : List BoundHandler) (scope : Scope) (key : String) (site : Site) :
    a.Yields files (composite setting below c name definition props handlers scope key site)
      c.innerSlotUses (a.slotAt site) := by
  simp only [Render.composite]
  split
  · exact .bind_logged fun _ => sound.yields_nil _ _
  · apply Produces.bind (sound.children inner c scope key site.deeper)
    intro slot made filled
    -- What has just been rendered is what stands in the slot of the definition.
    apply Produces.bind (inner definition _ key _)
    intro nodes later fit
    apply Produces.pure
    rw [Node.listTally_attachToFirst]
    exact sound.fill holds filled fit

theorem typed (sound : a.Sound) (inner : a.Covers setting.files below) (c : Component)
    (props : Record Json) (handlers : List BoundHandler) (scope : Scope) (key : String)
    (site : Site) :
    a.Admits setting.files (typed setting below c props handlers scope key site)
      c.innerSlotUses (a.slotAt site) := by
  simp only [Render.typed]
  apply Produces.bind_free (.resolve c.kind)
  intro found defines
  cases found with
  | none => exact .bind_logged fun _ => sound.admits (sound.yields_nil _ _)
  | some renderable =>
      apply Produces.bind_free (.warnDeprecated c.kind)
      intro _ _
      cases renderable with
      | composite name definition =>
          have holds : a.holds definition := defines _ rfl
          exact sound.admits (sound.composite inner c name holds props handlers scope key site)
      | element tag tier | icon name =>
          refine .bind (sound.children inner c scope key site.deeper) fun nodes made fit => .pure ?_
          rw [Node.listTally_singleton, Node.tally_element]
          exact sound.element fit

theorem itself (sound : a.Sound) (inner : a.Covers setting.files below) (c : Component)
    (scope : Scope) (key : String) (site : Site) :
    a.Admits setting.files (itself setting below c scope key site)
      c.innerSlotUses (a.slotAt site) := by
  simp only [Render.itself]
  apply Produces.bind_logged
  intro props
  split
  · refine .bind (sound.children inner c scope key site.deeper) fun nodes made fit => .pure ?_
    exact sound.mono (Nat.le_refl _) (Nat.le_add_left _ _) fit
  · exact sound.typed inner c props _ scope key site

/-- A component that is interpreted is covered together with its price. -/
theorem admitted (sound : a.Sound) (inner : a.Covers setting.files below) (c : Component)
    (scope : Scope) (key : String) (site : Site) :
    a.Admits setting.files (admitted setting below c scope key site) c.slotUses
      (a.slotAt site) := by
  apply Produces.bind_free (.logged (c.outcome_of scope))
  intro outcome shown
  cases outcome with
  | empty reason => exact sound.admits (sound.yields_nil _ _)
  | branch content =>
      apply sound.admits
      apply (sound.branch inner scope key site.deeper content).mono
      intro nodes made fit
      exact sound.mono shown.slotUses_le (Nat.le_refl _) fit
  | unconditional =>
      dsimp only
      split
      · rename_i isSlot
        rw [Component.slotUses_of_isSlot shown isSlot]
        exact .pure (sound.slot _)
      · rename_i isSlot
        rw [Component.slotUses_of_not_isSlot shown isSlot]
        exact sound.itself inner c scope key site

/-- At the gate a component pays its price, or else the price of what is shown instead. -/
theorem gate (sound : a.Sound) (c : Component) (depth : Nat) :
    a.Produces files (gate c depth) fun cut made =>
      match cut with
      | some nodes => ∀ uses slot, a.bound uses slot made (Node.listTally a.meter.weight nodes)
      | none => a.meter.weight ≤ made := by
  intro p cut q defines run
  have enters := p.guard.enters depth
  cases gated_of_run run with
  | proceeds decision =>
      rw [decision] at enters
      obtain ⟨made, runs, paid⟩ := sound.counts _ _ _ _ enters nofun
      exact ⟨defines, made, runs, paid⟩
  | cut shown decision =>
      rw [decision] at enters
      obtain ⟨made, runs, paid⟩ := sound.counts _ _ _ _ enters nofun
      refine ⟨defines, made, runs, fun uses slot => ?_⟩
      cases shown with
      | true => exact sound.mono (Nat.zero_le _) paid (sound.fallback slot)
      | false => exact sound.mono (Nat.zero_le _) (Nat.zero_le _) (sound.nothing slot)

/-- What covers everything inside of components covers the components. -/
theorem component (sound : a.Sound) (inner : a.Covers setting.files below) :
    a.Covers setting.files (component setting below) := by
  intro c scope key site
  rw [component_eq]
  apply Produces.bind (sound.gate c site.depth)
  intro cut paid fit
  cases cut with
  | some nodes => exact .pure (fit _ _)
  | none =>
      apply (sound.admitted inner c scope key site).mono
      intro nodes made covered
      exact sound.mono (Nat.le_refl _) (Nat.add_le_add_right fit _) covered

/-- A sound account covers rendering. -/
theorem upTo (sound : a.Sound) (levels : Nat) : a.Covers setting.files (upTo setting levels) := by
  induction levels with
  | zero => exact sound.component fun _ _ _ _ => sound.yields_nil _ _
  | succ levels ih => exact sound.component ih

end Sound

end

end Account

end UiDoc
