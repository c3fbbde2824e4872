import Mathlib.Data.List.Forall2
import UiDoc.Proofs.Document.Places
import UiDoc.Proofs.Document.Preorder
import UiDoc.Validation.Document

/-!
# Errors at components that show nothing

A component without a type, a conditional and children shows nothing.  There is one error for each
such component, in the order of the document, and the path of the error leads to the component in
the encoding of the document.
-/

namespace UiDoc

/-! ## Documents whose components can be counted -/

/-- No component has more parts than an index can tell apart. -/
def Component.Indexable (c : Component) : Prop :=
  ∀ d, c.Contains d → d.parts.length ≤ 2 ^ 64

/-- Components that an index can tell apart, and all that is inside of them. -/
structure Indexable (list : List Component) : Prop where
  length_le : list.length ≤ 2 ^ 64
  each : ∀ c ∈ list, c.Indexable

theorem Component.Indexable.parts {c : Component} (indexable : c.Indexable) :
    UiDoc.Indexable c.parts :=
  ⟨indexable c (.self c), fun _ part e contains => indexable e (.inside part contains)⟩

theorem Component.indexable_iff {c : Component} :
    c.Indexable ↔ c.parts.length ≤ 2 ^ 64 ∧ ∀ part ∈ c.parts, part.Indexable := by
  refine ⟨fun indexable => ⟨indexable.parts.length_le, indexable.parts.each⟩, ?_⟩
  rintro ⟨short, each⟩ d contains
  cases contains with
  | self => exact short
  | inside part contains => exact each _ part d contains

theorem indexable_append {front back : List Component} (indexable : Indexable (front ++ back)) :
    Indexable front ∧ Indexable back := by
  obtain ⟨short, each⟩ := indexable
  obtain ⟨eachFront, eachBack⟩ := List.forall_mem_append.1 each
  rw [List.length_append] at short
  exact ⟨⟨by omega, eachFront⟩, by omega, eachBack⟩

namespace Validation

/-! ## Issues of other rules -/

/-- No issue is an error at a component that shows nothing. -/
def Spares (issues : List Issue) : Prop :=
  ∀ issue ∈ issues, issue.rule ≠ .emptyNode

@[simp] theorem spares_nil : Spares [] :=
  nofun

@[simp] theorem spares_singleton {issue : Issue} : Spares [issue] ↔ issue.rule ≠ .emptyNode :=
  List.forall_mem_singleton

@[simp] theorem spares_append {front back : List Issue} :
    Spares (front ++ back) ↔ Spares front ∧ Spares back :=
  List.forall_mem_append

theorem spares_flatMap {α : Type} {list : List α} {issues : α → List Issue}
    (each : ∀ x, Spares (issues x)) : Spares (list.flatMap issues) := by
  intro issue member
  obtain ⟨x, -, inside⟩ := List.mem_flatMap.1 member
  exact each x issue inside

theorem spares_ofOption {α : Type} {issues : α → List Issue} (each : ∀ x, Spares (issues x))
    (o : Option α) : Spares (ofOption issues o) := by
  cases o with
  | none => exact spares_nil
  | some x => exact each x

variable (place : Place)

theorem spares_expression (text : String) : Spares (ofExpression place text) := by
  unfold ofExpression
  split <;> simp

theorem spares_template (template : String) : Spares (ofTemplate place template) :=
  spares_flatMap (spares_expression place)

theorem spares_record (declared : Record Json) : Spares (ofRecord place declared) := by
  refine spares_flatMap fun field => ?_
  obtain ⟨name, value⟩ := field
  cases value <;> first | exact spares_template _ _ | exact spares_nil

theorem spares_transform (transform : String) : Spares (ofTransform place transform) := by
  unfold ofTransform
  split <;> simp

theorem spares_binding (b : Binding) : Spares (ofBinding place b) := by
  cases b with
  | path => exact spares_nil
  | structured parts => exact spares_ofOption (spares_transform _) _

theorem spares_props (c : Component) : Spares (ofProps place c) := by
  simp only [ofProps, spares_append]
  refine ⟨⟨⟨⟨spares_record _ _, spares_ofOption (spares_template _) _⟩,
    spares_ofOption (spares_record _) _⟩, ?_⟩, spares_ofOption (spares_binding _) _⟩
  exact spares_flatMap fun field => spares_binding _ field.2

theorem spares_handler (h : EventHandler) : Spares (ofHandler place h) := by
  refine spares_append.2 ⟨?_, spares_ofOption (spares_expression _) _⟩
  split <;> simp

theorem spares_events (events : EventsField) : Spares (ofEvents place events) :=
  spares_flatMap fun _ => spares_handler _ _

theorem spares_condition (condition : String) : Spares (ofCondition place condition) := by
  unfold ofCondition
  split
  · simp
  · exact spares_expression _ _

theorem spares_branches (yes no : Branch) : Spares (ofBranches place yes no) := by
  unfold ofBranches
  split <;> simp

theorem spares_loop (l : Loop) (children : Option Content) : Spares (ofLoop place l children) := by
  unfold ofLoop
  simp only [spares_append]
  refine ⟨⟨⟨⟨?_, ?_⟩, spares_binding _ _⟩, spares_ofOption (spares_expression _) _⟩, ?_⟩ <;>
    split <;> simp

theorem spares_answer (kind : String) (r : Registry) (found : Option Renderable) :
    Spares (ofAnswer place kind r found) := by
  unfold ofAnswer
  split
  · simp
  · split <;> simp

/-! ## What acts find -/

/-- Whatever is known before, the issues are such. -/
def Gives (act : Inspecting (List Issue)) (such : List Issue → Prop) : Prop :=
  ∀ state, such (act.run state).1

variable {such other : List Issue → Prop}

theorem gives_pure {issues : List Issue} (are : such issues) : Gives (pure issues) such :=
  fun _ => are

theorem Gives.bind {act : Inspecting (List Issue)} {next : List Issue → Inspecting (List Issue)}
    (first : Gives act other) (second : ∀ issues, other issues → Gives (next issues) such) :
    Gives (act >>= next) such :=
  fun state => second _ (first state) _

theorem gives_id (id : String) : Gives (ofId place id) Spares := by
  intro state
  simp only [ofId, StateT.run_bind, StateT.run_get, pure_bind]
  split
  · exact spares_nil
  · split
    · exact spares_singleton.2 nofun
    · exact spares_nil

theorem gives_type (files : Files) (c : Component) : Gives (ofType files place c) Spares := by
  intro state
  simp only [ofType, StateT.run_bind, StateT.run_get, pure_bind]
  split
  · exact spares_nil
  · split
    · exact spares_nil
    · exact spares_answer _ _ _ _

/-! ## Errors with exact paths -/

/-- The errors at components that show nothing. -/
def empties (issues : List Issue) : List Issue :=
  issues.filter fun issue => issue.rule = .emptyNode

theorem empties_append (front back : List Issue) :
    empties (front ++ back) = empties front ++ empties back :=
  List.filter_append ..

theorem empties_of_spares {issues : List Issue} (spares : Spares issues) : empties issues = [] :=
  List.filter_eq_nil_iff.2 fun issue member => by simpa using spares issue member

theorem empties_ofNode (c : Component) : empties (ofNode place c) = ofNode place c := by
  unfold ofNode
  split <;> rfl

variable {place}

/-- There is one error for each of the components that shows nothing, in order, whose path leads to
the component.  All the paths lie in a region, and no two are the same. -/
structure Exact (root : Json) (region : List String → Prop) (issues : List Issue)
    (nodes : List Component) : Prop where
  leads : List.Forall₂ (fun issue node => issue.place.Leads root node.toJson) (empties issues)
    (nodes.filter showsNothing)
  within : ∀ issue ∈ empties issues, region issue.place.segments
  distinct : ((empties issues).map fun issue => issue.place.segments).Nodup

namespace Exact

variable {root : Json} {A B : List String → Prop} {front back issues : List Issue}
  {nodes more : List Component}

theorem of_spares (spares : Spares issues) : Exact root A issues [] := by
  refine ⟨?_, ?_, ?_⟩ <;> rw [empties_of_spares spares]
  · exact .nil
  · exact List.forall_mem_nil _
  · exact .nil

/-- Only the errors at components that show nothing count. -/
theorem congr (exact : Exact root A issues nodes) (same : empties front = empties issues) :
    Exact root A front nodes := by
  obtain ⟨leads, within, distinct⟩ := exact
  rw [← same] at leads within distinct
  exact ⟨leads, within, distinct⟩

theorem mono (exact : Exact root A issues nodes) (wider : ∀ s, A s → B s) :
    Exact root B issues nodes :=
  { exact with within := fun issue member => wider _ (exact.within issue member) }

/-- Errors in regions that have nothing in common stand one behind the other. -/
theorem append (first : Exact root A front nodes) (second : Exact root B back more)
    (apart : ∀ s, A s → ¬ B s) :
    Exact root (fun s => A s ∨ B s) (front ++ back) (nodes ++ more) := by
  refine ⟨?_, ?_, ?_⟩ <;> rw [empties_append]
  · rw [List.filter_append]
    exact List.rel_append first.leads second.leads
  · exact List.forall_mem_append.2 ⟨fun issue member => .inl (first.within issue member),
      fun issue member => .inr (second.within issue member)⟩
  · rw [List.map_append, List.nodup_append]
    refine ⟨first.distinct, second.distinct, ?_⟩
    intro s member t memberToo same
    obtain ⟨issue, found, rfl⟩ := List.mem_map.1 member
    obtain ⟨other, foundToo, rfl⟩ := List.mem_map.1 memberToo
    exact apart _ (first.within issue found) (same ▸ second.within other foundToo)

theorem node (c : Component) (leads : place.Leads root c.toJson) :
    Exact root (· = place.segments) (ofNode place c) [c] := by
  refine ⟨?_, ?_, ?_⟩ <;> rw [empties_ofNode]
  · unfold ofNode
    split
    · rename_i empty
      rw [List.filter_cons_of_pos empty]
      exact .cons leads .nil
    · rename_i filled
      rw [List.filter_cons_of_neg filled]
      exact .nil
  · unfold ofNode
    split <;> simp
  · unfold ofNode
    split <;> simp

theorem readable (exact : Exact root A issues nodes) :
    ∀ issue ∈ empties issues, issue.place.Readable :=
  ((List.forall₂_and_left _ _).1 (exact.leads.imp fun _ _ leads => ⟨leads.readable, leads⟩)).1

/-- No two of the paths have the same text either. -/
theorem nodup_texts (exact : Exact root A issues nodes) :
    ((empties issues).map fun issue => issue.place.text).Nodup := by
  refine List.pairwise_map.2 ((List.pairwise_map.1 exact.distinct).imp_of_mem ?_)
  intro issue other member memberOther apart same
  have readable := exact.readable issue member
  have readableOther := exact.readable other memberOther
  exact apart (Place.segments_congr readable readableOther same)

end Exact

/-- The path goes through a place. -/
def Under (place : Place) (s : List String) : Prop :=
  place.segments <+: s

theorem Under.of_field {name : String} {s : List String} (under : Under (place.field name) s) :
    Under place s := by
  rw [Under, Place.segments_field] at under
  exact (List.prefix_append ..).trans under

theorem Under.of_item {index : Nat} {s : List String} (under : Under (place.item index) s) :
    Under place s := by
  rw [Under, Place.segments_item] at under
  exact (List.prefix_append ..).trans under

theorem not_under_field_self (place : Place) (name : String) :
    ¬ Under (place.field name) place.segments := by
  intro under
  have longer := under.length_le
  rw [Place.segments_field, List.length_append, List.length_singleton] at longer
  omega

/-- What follows a beginning of a path is the same in one path. -/
theorem eq_of_continues {front s : List String} {a b : String} (first : front ++ [a] <+: s)
    (second : front ++ [b] <+: s) : a = b := by
  have same := List.prefix_of_prefix_length_le first second (by simp)
  simpa using same.eq_of_length (by simp)

theorem not_under_field {name other : String} (differs : name ≠ other) {s : List String}
    (under : Under (place.field name) s) : ¬ Under (place.field other) s := by
  intro underToo
  rw [Under, Place.segments_field] at under underToo
  exact differs (eq_of_continues under underToo)

theorem not_under_item {i j : Nat} (differs : i ≠ j) {s : List String}
    (under : Under (place.item i) s) : ¬ Under (place.item j) s := by
  intro underToo
  rw [Under, Place.segments_item] at under underToo
  exact differs (Decimal.natText_inj (eq_of_continues under underToo))

/-! ## Components -/

variable {root : Json} {files : Files}

theorem gives_head (files : Files) (place : Place) (c : Component) :
    Gives (ofHead files place c) fun issues => empties issues = ofNode place c := by
  rw [ofHead]
  refine Gives.bind (gives_id place c.id) ?_
  intro forId sparesId
  refine Gives.bind (gives_type place files c) ?_
  intro forType sparesType
  apply gives_pure
  have events := spares_ofOption (spares_events place) c.events
  simp only [empties_append, empties_ofNode, empties_of_spares sparesId,
    empties_of_spares sparesType, empties_of_spares (spares_props place c),
    empties_of_spares events, List.append_nil]

theorem Exact.component {c : Component} {head inConditional inLoop inside : List Issue}
    (leads : place.Leads root c.toJson) (headed : empties head = ofNode place c)
    (conditioned : Exact root (Under (place.field "conditional")) inConditional
      (((c.conditional.map Conditional.components).getD []).flatMap Component.preorder))
    (looped : Spares inLoop)
    (filled : Exact root (Under (place.field "children")) inside
      (c.childNodes.flatMap Component.preorder)) :
    Exact root (Under place) (head ++ inConditional ++ inLoop ++ inside) c.preorder := by
  have parts := conditioned.append filled fun s => not_under_field (by decide)
  have whole := (Exact.node c leads).append parts fun s own => by
    rintro (through | through) <;>
      exact not_under_field_self place _ (own ▸ through)
  have order : [c] ++ (((c.conditional.map Conditional.components).getD []).flatMap
      Component.preorder ++ c.childNodes.flatMap Component.preorder) = c.preorder := by
    rw [c.preorder_eq, Component.parts, List.flatMap_append, List.singleton_append]
  rw [order] at whole
  refine (whole.mono ?_).congr ?_
  · rintro s (rfl | through | through)
    · exact List.prefix_refl _
    · exact through.of_field
    · exact through.of_field
  · simp only [empties_append, empties_ofNode, headed, empties_of_spares looped, List.nil_append,
      List.append_assoc]

theorem Exact.conditional {k : Conditional} {inYes inNo : List Issue}
    (yes : Exact root (Under (place.field "then")) inYes
      (k.yes.components.flatMap Component.preorder))
    (no : Exact root (Under (place.field "else")) inNo
      (k.no.components.flatMap Component.preorder)) :
    Exact root (Under place)
      (ofCondition place k.condition ++ ofBranches place k.yes k.no ++ inYes ++ inNo)
      (k.components.flatMap Component.preorder) := by
  have both := yes.append no fun s => not_under_field (by decide)
  rw [← List.flatMap_append] at both
  refine (both.mono ?_).congr ?_
  · rintro s (through | through) <;> exact through.of_field
  · simp only [empties_append, empties_of_spares (spares_condition place k.condition),
      empties_of_spares (spares_branches place k.yes k.no), List.nil_append]

-- The paths of the parts of a component begin with its own path, and differ in the name or the
-- number that comes next.
mutual

/-- The errors inside of a component have exact paths through its own. -/
theorem exact_component {place : Place} {c : Component} (leads : place.Leads root c.toJson)
    (indexable : c.Indexable) :
    Gives (ofComponent files place c) (Exact root (Under place) · c.preorder) := by
  obtain ⟨fields, encoded, conditionalField, childrenField⟩ := c.exists_fields
  have leadsFields := encoded ▸ leads
  have atConditional (k) (declares : c.conditional = some k) :
      (place.field "conditional").Leads root k.toJson := by
    rw [declares] at conditionalField
    exact leadsFields.field (by decide) conditionalField
  have atChildren (content) (declares : c.children = some content) :
      (place.field "children").Leads root content.toJson := by
    rw [declares] at childrenField
    exact leadsFields.field (by decide) childrenField
  obtain ⟨inBranches, inChildren⟩ := indexable_append indexable.parts
  match c with
  | { id, kind, props, className, style, bindings, dataBinding, events, conditional, loop,
      children } =>
      rw [ofComponent]
      refine Gives.bind (gives_head files place _) ?_
      intro head headed
      refine Gives.bind (exact_conditional atConditional inBranches) ?_
      intro inConditional conditioned
      refine Gives.bind (exact_children atChildren inChildren) ?_
      intro inside filled
      apply gives_pure
      exact .component leads headed conditioned
        (spares_ofOption (fun l => spares_loop _ l children) loop) filled

theorem exact_conditional {place : Place} {o : Option Conditional}
    (leads : ∀ k, o = some k → place.Leads root k.toJson)
    (indexable : Indexable ((o.map Conditional.components).getD [])) :
    Gives (ofConditional files place o)
      (Exact root (Under place) ·
        (((o.map Conditional.components).getD []).flatMap Component.preorder)) := by
  match o with
  | none => exact gives_pure (.of_spares spares_nil)
  | some { condition, yes, no } =>
      obtain ⟨fields, encoded, yesField, noField⟩ := Conditional.exists_fields ⟨condition, yes, no⟩
      have leadsFields := encoded ▸ leads _ rfl
      obtain ⟨inYes, inNo⟩ := indexable_append indexable
      have atYes (content) (shows : yes = .content content) :
          (place.field "then").Leads root content.toJson :=
        leadsFields.field (by decide) (yesField content shows)
      have atNo (content) (shows : no = .content content) :
          (place.field "else").Leads root content.toJson :=
        leadsFields.field (by decide) (noField content shows)
      rw [ofConditional]
      refine Gives.bind (exact_branch atYes inYes) ?_
      intro yesIssues yesExact
      refine Gives.bind (exact_branch atNo inNo) ?_
      intro noIssues noExact
      apply gives_pure
      exact Exact.conditional (k := ⟨condition, yes, no⟩) yesExact noExact

theorem exact_branch {place : Place} {b : Branch}
    (leads : ∀ content, b = .content content → place.Leads root content.toJson)
    (indexable : Indexable b.components) :
    Gives (ofBranch files place b)
      (Exact root (Under place) · (b.components.flatMap Component.preorder)) := by
  match b with
  | .absent => exact gives_pure (.of_spares spares_nil)
  | .nothing => exact gives_pure (.of_spares spares_nil)
  | .content shown => exact exact_content (leads shown rfl) indexable

theorem exact_children {place : Place} {o : Option Content}
    (leads : ∀ content, o = some content → place.Leads root content.toJson)
    (indexable : Indexable ((o.map Content.components).getD [])) :
    Gives (ofChildren files place o)
      (Exact root (Under place) ·
        (((o.map Content.components).getD []).flatMap Component.preorder)) := by
  match o with
  | none => exact gives_pure (.of_spares spares_nil)
  | some content => exact exact_content (leads content rfl) indexable

theorem exact_content {place : Place} {content : Content} (leads : place.Leads root content.toJson)
    (indexable : Indexable content.components) :
    Gives (ofContent files place content)
      (Exact root (Under place) · (content.components.flatMap Component.preorder)) := by
  match content with
  | .text template => exact gives_pure (.of_spares (spares_template place template))
  | .node c =>
      rw [Content.toJson] at leads
      have each : c.Indexable := indexable.each c (List.mem_singleton_self c)
      have alone : [c].flatMap Component.preorder = c.preorder := List.flatMap_singleton ..
      rw [ofContent, Content.components, alone]
      exact exact_component leads each
  | .nodes list =>
      rw [Content.toJson, componentsToJson_eq, ← List.nil_append (list.map _)] at leads
      have short : 0 + list.length ≤ 2 ^ 64 := (Nat.zero_add _).trans_le indexable.length_le
      rw [ofContent]
      intro state
      refine (exact_components leads rfl short indexable.each state).mono ?_
      rintro s ⟨i, -, through⟩
      exact through.of_item

/-- From an index on, the numbers of the components tell their paths apart. -/
theorem exact_components {place : Place} {front : List Json} {index : Nat} {list : List Component}
    (leads : place.Leads root (.arr (front ++ list.map Component.toJson)))
    (counts : front.length = index) (short : index + list.length ≤ 2 ^ 64)
    (each : ∀ c ∈ list, c.Indexable) :
    Gives (ofComponents files place index list)
      (Exact root (fun s => ∃ i, index ≤ i ∧ Under (place.item i) s) ·
        (list.flatMap Component.preorder)) := by
  match list with
  | [] => exact gives_pure (.of_spares spares_nil)
  | c :: rest =>
      obtain ⟨eachFirst, eachOther⟩ := List.forall_mem_cons.1 each
      rw [List.length_cons] at short
      have first : (front ++ (c :: rest).map Component.toJson)[index]? = some c.toJson := by
        subst counts
        simp
      have leadsRest : place.Leads root
          (.arr ((front ++ [c.toJson]) ++ rest.map Component.toJson)) := by
        rw [List.append_assoc]
        exact leads
      have countsRest : (front ++ [c.toJson]).length = index + 1 := by
        rw [List.length_append, counts, List.length_singleton]
      rw [ofComponents]
      refine Gives.bind (exact_component (leads.item (by omega) first) eachFirst) ?_
      intro issues exact
      refine Gives.bind (exact_components leadsRest countsRest (by omega) eachOther) ?_
      intro others exactOthers
      apply gives_pure
      refine (exact.append exactOthers ?_).mono ?_
      · rintro s through ⟨i, later, throughOther⟩
        exact not_under_item (by omega) through throughOther
      · rintro s (through | ⟨i, later, through⟩)
        · exact ⟨index, le_rfl, through⟩
        · exact ⟨i, by omega, through⟩

end

end Validation

/-- The errors at components that show nothing are, in the order of the document, one for each such
component, and the path of the error leads to the component in the encoding of the document.  All
the paths are different.  Indices in paths are read as 64-bit numbers, and no more components than
that can be counted. -/
theorem Report.emptyNodes_ofDocument (files : Files) (registry : Option Registry)
    {document : Component} (indexable : document.Indexable) :
    let errors := (ofDocument files registry document).errors.filter (·.rule = .emptyNode)
    let nodes := document.preorder.filter fun c =>
      c.kind = "" && c.conditional.isNone && c.children.isNone
    List.Forall₂ (fun error node => ∃ path, error.place.text = "$" ++ path ∧
        Path.walk document.toJson path = some node.toJson) errors nodes ∧
      (errors.map (·.place.text)).Nodup := by
  intro errors nodes
  have gives : Validation.Gives (Validation.ofComponent files .root document)
      (Validation.Exact document.toJson (Validation.Under .root) · document.preorder) :=
    Validation.exact_component (.start document.toJson) indexable
  have exact := gives ⟨registry, []⟩
  have all : errors = Validation.empties
      ((Validation.ofComponent files .root document).run ⟨registry, []⟩).1 := by
    simp only [errors, ofDocument, ofIssues, Validation.empties, List.filter_filter]
    refine List.filter_congr fun issue _ => ?_
    cases issue.rule <;> rfl
  rw [all]
  constructor
  · refine exact.leads.imp fun issue node leads => ?_
    exact ⟨_, issue.place.text_eq, leads.walk⟩
  · exact exact.nodup_texts

/-- Components that show nothing in both branches, in the children and behind a component that shows
something. -/
theorem Report.emptyNodes_ofDocument_nested :
    let shown : Component := { kind := "p", children := some (.text "text") }
    let choice : Conditional :=
      { condition := "x", yes := .content (.node {}), no := .content (.nodes [shown, {}]) }
    let inner : Component := { conditional := some choice, children := some (.node {}) }
    let document : Component := { kind := "div", children := some (.nodes [inner, {}]) }
    let errors := (ofDocument {} none document).errors.filter (·.rule = .emptyNode)
    document.Indexable ∧
      errors.map (·.place.text) = ["$.children[0].conditional.then",
        "$.children[0].conditional.else[1]", "$.children[0].children", "$.children[1]"] ∧
      List.Forall₂ (fun error node => ∃ path, error.place.text = "$" ++ path ∧
        Path.walk document.toJson path = some node.toJson) errors
        (document.preorder.filter fun c =>
          c.kind = "" && c.conditional.isNone && c.children.isNone) := by
  intro shown choice inner document errors
  have empty : Component.Indexable {} := Component.indexable_iff.2 ⟨by decide, nofun⟩
  have shownIndexable : shown.Indexable := Component.indexable_iff.2 ⟨by decide, nofun⟩
  have innerParts : inner.parts = [{}, shown, {}, {}] := rfl
  have innerIndexable : inner.Indexable :=
    Component.indexable_iff.2 ⟨by decide, by simp [innerParts, empty, shownIndexable]⟩
  have parts : document.parts = [inner, {}] := rfl
  have indexable : document.Indexable :=
    Component.indexable_iff.2 ⟨by decide, by simp [parts, empty, innerIndexable]⟩
  exact ⟨indexable, by decide +kernel, (Report.emptyNodes_ofDocument {} none indexable).1⟩

end UiDoc
