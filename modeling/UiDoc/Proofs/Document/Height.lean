import UiDoc.Proofs.Document.Contents

/-!
# The height of a document

How many levels of components there are in a component, over its branches and its children.
-/

namespace UiDoc

mutual

/-- How many levels there are in a component, its own included. -/
def Component.height : Component → Nat
  | { conditional, children, .. } =>
      max (conditionalHeight conditional) (childrenHeight children) + 1
termination_by structural c => c

/-- How many levels there are in the branches of a conditional. -/
def conditionalHeight : Option Conditional → Nat
  | none => 0
  | some conditional => conditional.height
termination_by structural c => c

/-- How many levels there are in both branches. -/
def Conditional.height : Conditional → Nat
  | { yes, no, .. } => max yes.height no.height
termination_by structural c => c

/-- How many levels there are in a branch. -/
def Branch.height : Branch → Nat
  | .absent => 0
  | .nothing => 0
  | .content content => content.height
termination_by structural b => b

/-- How many levels there are in children. -/
def childrenHeight : Option Content → Nat
  | none => 0
  | some content => content.height
termination_by structural c => c

/-- How many levels there are in content. -/
def Content.height : Content → Nat
  | .text _ => 0
  | .nodes nodes => componentsHeight nodes
  | .node node => node.height
termination_by structural c => c

/-- How many levels there are in components. -/
def componentsHeight : List Component → Nat
  | [] => 0
  | node :: nodes => max node.height (componentsHeight nodes)
termination_by structural c => c

end

theorem height_le_componentsHeight {d : Component} {list : List Component} (member : d ∈ list) :
    d.height ≤ componentsHeight list := by
  induction list with
  | nil => cases member
  | cons node nodes ih =>
      rcases List.mem_cons.1 member with rfl | later
      · exact Nat.le_max_left _ _
      · exact Nat.le_trans (ih later) (Nat.le_max_right _ _)

theorem Content.height_le {d : Component} {content : Content} (member : d ∈ content.components) :
    d.height ≤ content.height := by
  cases content with
  | text => cases member
  | nodes list => exact height_le_componentsHeight member
  | node one =>
      cases List.mem_singleton.1 member
      exact Nat.le_refl _

theorem Branch.height_le {d : Component} {b : Branch} (member : d ∈ b.components) :
    d.height ≤ b.height := by
  cases b with
  | absent | nothing => cases member
  | content content => exact Content.height_le member

theorem Conditional.height_le {d : Component} {conditional : Conditional}
    (member : d ∈ conditional.components) : d.height ≤ conditional.height := by
  cases conditional
  rcases List.mem_append.1 member with yes | no
  · exact Nat.le_trans (Branch.height_le yes) (Nat.le_max_left _ _)
  · exact Nat.le_trans (Branch.height_le no) (Nat.le_max_right _ _)

namespace Component

variable {c d : Component}

theorem height_pos (c : Component) : 0 < c.height := by
  cases c
  exact Nat.succ_pos _

/-- A part of a component has fewer levels. -/
theorem height_lt_of_part (part : d ∈ c.parts) : d.height < c.height := by
  obtain ⟨_, _, _, _, _, _, _, _, conditional, _, children⟩ := c
  apply Nat.lt_succ_of_le
  rcases List.mem_append.1 part with branch | child
  · apply Nat.le_trans _ (Nat.le_max_left _ _)
    cases conditional with
    | none => cases branch
    | some conditional => exact Conditional.height_le branch
  · apply Nat.le_trans _ (Nat.le_max_right _ _)
    cases children with
    | none => cases child
    | some content => exact Content.height_le child

end Component

end UiDoc
