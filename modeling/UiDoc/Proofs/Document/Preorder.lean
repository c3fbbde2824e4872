import UiDoc.Proofs.Document.Height

/-!
# The components of a document in order

Each component stands in front of what is inside of it: first the branch that is shown if its
condition holds, then the other branch, then the children.
-/

namespace UiDoc.Component

variable {c d : Component}

/-- A component and all components inside of it, in the order of the document. -/
def preorder (c : Component) : List Component :=
  c :: c.parts.attach.flatMap fun part => preorder part.1
termination_by c.height
decreasing_by exact height_lt_of_part part.2

theorem preorder_eq (c : Component) : c.preorder = c :: c.parts.flatMap preorder := by
  rw [preorder, List.flatMap_subtype]
  · rw [List.unattach_attach]
  · exact fun _ _ => rfl

theorem contains_of_mem_preorder (c : Component) (member : d ∈ c.preorder) : c.Contains d := by
  rw [preorder_eq] at member
  rcases List.mem_cons.1 member with rfl | inside
  · exact .self d
  · obtain ⟨part, isPart, member⟩ := List.mem_flatMap.1 inside
    have lower := height_lt_of_part isPart
    exact .inside isPart (contains_of_mem_preorder part member)
termination_by c.height

/-- These are the components that the component contains. -/
theorem mem_preorder : d ∈ c.preorder ↔ c.Contains d := by
  refine ⟨contains_of_mem_preorder c, fun contains => ?_⟩
  induction contains with
  | self c =>
      rw [preorder_eq]
      exact List.mem_cons_self ..
  | inside part _ ih =>
      rw [preorder_eq]
      exact List.mem_cons_of_mem _ (List.mem_flatMap.2 ⟨_, part, ih⟩)

end UiDoc.Component
