import UiDoc.Flow.Branching
import UiDoc.Proofs.Document.Contents
import UiDoc.Render.Handlers

/-!
# Counting nodes and slots

A tally counts the fallbacks among some nodes and below them, and the elements by a weight.  How
many nodes a definition is replaced with depends on how often it places its slot, which can be seen
from the definition: only one branch of a conditional is shown, and what is repeated counts twice.
-/

namespace UiDoc

/-! ## Nodes -/

mutual

/-- Counts an element and what is below it. -/
def Element.tally (weight : Nat) : Element → Nat
  | ⟨_, _, _, _, _, _, children⟩ => weight + Node.listTally weight children
termination_by structural e => e

/-- Counts a node and what is below it: an element as `weight`, and a fallback as one. -/
def Node.tally (weight : Nat) : Node → Nat
  | .element e => e.tally weight
  | .fragment _ children => Node.listTally weight children
  | .text _ => 0
  | .fallback _ _ => 1
termination_by structural n => n

/-- Counts nodes and what is below them. -/
def Node.listTally (weight : Nat) : List Node → Nat
  | [] => 0
  | n :: rest => n.tally weight + Node.listTally weight rest
termination_by structural list => list

end

namespace Node

variable (weight : Nat)

theorem tally_element (e : Element) :
    (Node.element e).tally weight = weight + listTally weight e.children := by
  cases e
  rfl

theorem listTally_singleton (n : Node) : listTally weight [n] = n.tally weight := rfl

theorem listTally_append (front back : List Node) :
    listTally weight (front ++ back) = listTally weight front + listTally weight back := by
  induction front with
  | nil => exact (Nat.zero_add _).symm
  | cons n rest ih => simp only [List.cons_append, listTally, ih, Nat.add_assoc]

/-- Handlers do not count. -/
theorem listTally_attachToFirst (handlers : List BoundHandler) (nodes : List Node) :
    listTally weight (attachToFirst handlers nodes) = listTally weight nodes := by
  simp only [attachToFirst]
  split
  · simp only [listTally, tally_element, Element.attach]
  · rfl

end Node

/-! ## Slots -/

mutual

/-- How often a component places the slot of the definition that it stands in. -/
def Component.slotUses : Component → Nat
  | { kind, conditional, loop, children, .. } =>
      conditionalSlotUses conditional
        (if ({ kind } : Component).isSlot then 1
        else if loop.isSome then 2 * childrenSlotUses children
        else childrenSlotUses children)
termination_by structural c => c

/-- How often the slot is placed by a conditional, or else otherwise. -/
def conditionalSlotUses : Option Conditional → (otherwise : Nat) → Nat
  | none, otherwise => otherwise
  | some conditional, _ => conditional.slotUses
termination_by structural c => c

/-- How often the slot is placed by the branch that places it more often. -/
def Conditional.slotUses : Conditional → Nat
  | { yes, no, .. } => max yes.slotUses no.slotUses
termination_by structural c => c

/-- How often the slot is placed by a branch. -/
def Branch.slotUses : Branch → Nat
  | .absent => 0
  | .nothing => 0
  | .content content => content.slotUses
termination_by structural b => b

/-- How often the slot is placed by children. -/
def childrenSlotUses : Option Content → Nat
  | none => 0
  | some content => content.slotUses
termination_by structural c => c

/-- How often the slot is placed by content. -/
def Content.slotUses : Content → Nat
  | .text _ => 0
  | .nodes nodes => componentsSlotUses nodes
  | .node node => node.slotUses
termination_by structural c => c

/-- How often the slot is placed by components. -/
def componentsSlotUses : List Component → Nat
  | [] => 0
  | node :: nodes => node.slotUses + componentsSlotUses nodes
termination_by structural c => c

end

namespace Component

/-- How often the slot is placed by what is inside of a component. -/
def innerSlotUses (c : Component) : Nat :=
  if c.loop.isSome then 2 * childrenSlotUses c.children else childrenSlotUses c.children

variable {c : Component}

theorem slotUses_of_conditional {conditional : Conditional}
    (shown : c.conditional = some conditional) : c.slotUses = conditional.slotUses := by
  cases c
  cases shown
  rfl

theorem slotUses_of_isSlot (plain : c.conditional = none) (isSlot : c.isSlot = true) :
    c.slotUses = 1 := by
  cases c
  cases plain
  exact if_pos isSlot

theorem slotUses_of_not_isSlot (plain : c.conditional = none) (isSlot : ¬ c.isSlot = true) :
    c.slotUses = c.innerSlotUses := by
  cases c
  cases plain
  exact if_neg isSlot

end Component

/-! ## Outcomes -/

/-- The outcome is what the component declares. -/
def Outcome.Of (c : Component) : Outcome → Prop
  | .unconditional => c.conditional = none
  | .empty _ => True
  | .branch content => ∃ conditional, c.conditional = some conditional ∧
      (conditional.yes = .content content ∨ conditional.no = .content content)

theorem Branch.outcome_eq (b : Branch) :
    (∃ reason, b.outcome = .empty reason) ∨
      ∃ content, b = .content content ∧ b.outcome = .branch content := by
  simp only [outcome]
  split
  · exact .inl ⟨_, rfl⟩
  · exact .inl ⟨_, rfl⟩
  · exact .inl ⟨_, rfl⟩
  · exact .inr ⟨_, rfl, rfl⟩

/-- A component shows itself or one of its branches, whatever is known. -/
theorem Component.outcome_of (c : Component) (scope : Scope) (j : Journal) :
    ((c.outcome scope).run j).1.Of c := by
  simp only [outcome]
  cases given : c.conditional with
  | none => exact given
  | some conditional =>
      have shows (b : Branch) (side : conditional.yes = b ∨ conditional.no = b) :
          b.outcome.Of c := by
        rcases b.outcome_eq with ⟨reason, same⟩ | ⟨content, rfl, same⟩
        · rw [same]
          trivial
        · rw [same]
          exact ⟨conditional, given, side⟩
      change Outcome.Of c (if ((Expr.holds scope conditional.condition).run j).1
        then conditional.yes.outcome else conditional.no.outcome)
      split
      · exact shows _ (.inl rfl)
      · exact shows _ (.inr rfl)

/-- The components of the branch that is shown are parts of the component. -/
theorem Outcome.Of.mem_parts {c d : Component} {content : Content}
    (shown : (Outcome.branch content).Of c) (member : d ∈ content.components) : d ∈ c.parts := by
  obtain ⟨conditional, given, side⟩ := shown
  apply List.mem_append_left
  rw [given]
  rcases side with yes | no
  · exact List.mem_append_left _ (by rw [yes]; exact member)
  · exact List.mem_append_right _ (by rw [no]; exact member)

/-- A branch places the slot no more often than its component. -/
theorem Outcome.Of.slotUses_le {c : Component} {content : Content}
    (shown : (Outcome.branch content).Of c) : content.slotUses ≤ c.slotUses := by
  rcases shown with ⟨conditional, given, side⟩
  rw [Component.slotUses_of_conditional given]
  rcases conditional with ⟨condition, yes, no⟩
  rcases side with rfl | rfl
  · exact Nat.le_max_left _ _
  · exact Nat.le_max_right _ _

end UiDoc
