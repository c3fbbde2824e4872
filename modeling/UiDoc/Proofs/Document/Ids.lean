import UiDoc.Proofs.Document.Contents

/-!
# The ids of a document

All ids that are declared in a component, over both of its branches and its children.  If they are
distinct, those of two siblings are, and those of a component are not those of what is inside of it.
-/

namespace UiDoc

mutual

/-- The ids that are not empty in a component, its own first. -/
def Component.ids : Component → List String
  | { id, conditional, children, .. } =>
      (if id = "" then [] else [id]) ++ (conditionalIds conditional ++ childrenIds children)
termination_by structural c => c

/-- The ids in the branches of a conditional. -/
def conditionalIds : Option Conditional → List String
  | none => []
  | some conditional => conditional.ids
termination_by structural c => c

/-- The ids in both branches. -/
def Conditional.ids : Conditional → List String
  | { yes, no, .. } => yes.ids ++ no.ids
termination_by structural c => c

/-- The ids in a branch. -/
def Branch.ids : Branch → List String
  | .absent => []
  | .nothing => []
  | .content content => content.ids
termination_by structural b => b

/-- The ids in children. -/
def childrenIds : Option Content → List String
  | none => []
  | some content => content.ids
termination_by structural c => c

/-- The ids in content. -/
def Content.ids : Content → List String
  | .text _ => []
  | .nodes nodes => componentsIds nodes
  | .node node => node.ids
termination_by structural c => c

/-- The ids in components. -/
def componentsIds : List Component → List String
  | [] => []
  | node :: nodes => node.ids ++ componentsIds nodes
termination_by structural c => c

end

theorem componentsIds_eq (list : List Component) :
    componentsIds list = list.flatMap Component.ids := by
  induction list with
  | nil => rfl
  | cons node nodes ih => simp only [componentsIds, ih, List.flatMap_cons]

theorem Content.ids_eq (content : Content) :
    content.ids = content.components.flatMap Component.ids := by
  cases content with
  | text => rfl
  | nodes list => exact componentsIds_eq list
  | node one => exact (List.append_nil _).symm

theorem Branch.ids_eq (b : Branch) : b.ids = b.components.flatMap Component.ids := by
  cases b with
  | absent | nothing => rfl
  | content content => exact content.ids_eq

theorem Conditional.ids_eq (c : Conditional) : c.ids = c.components.flatMap Component.ids := by
  cases c
  simp only [Conditional.ids, Conditional.components, Branch.ids_eq, List.flatMap_append]

namespace Component

variable {c d : Component}

/-- The ids inside of a component. -/
def innerIds (c : Component) : List String :=
  c.parts.flatMap ids

/-- The ids of a component are its own and those inside of it. -/
theorem ids_eq (c : Component) : c.ids = (if c.id = "" then [] else [c.id]) ++ c.innerIds := by
  obtain ⟨_, _, _, _, _, _, _, _, conditional, _, children⟩ := c
  simp only [ids, innerIds, parts, childNodes, List.flatMap_append]
  congr 2
  · cases conditional with
    | none => rfl
    | some conditional => exact conditional.ids_eq
  · cases children with
    | none => rfl
    | some content => exact content.ids_eq

theorem innerIds_sublist (c : Component) : c.innerIds.Sublist c.ids := by
  rw [ids_eq]
  exact List.sublist_append_right _ _

theorem id_mem_ids (named : c.id ≠ "") : c.id ∈ c.ids := by
  rw [ids_eq, if_neg named]
  exact List.mem_cons_self ..

/-- If ids are distinct, that of a component is not declared inside of it. -/
theorem id_not_mem_innerIds (named : c.id ≠ "") (distinct : c.ids.Nodup) : c.id ∉ c.innerIds := by
  rw [ids_eq, if_neg named, List.singleton_append, List.nodup_cons] at distinct
  exact distinct.1

theorem ids_sublist_of_mem {list : List Component} (member : d ∈ list) :
    d.ids.Sublist (list.flatMap ids) :=
  List.sublist_flatten_of_mem (List.mem_map_of_mem member)

end Component

end UiDoc
