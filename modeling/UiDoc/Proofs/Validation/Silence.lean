import UiDoc.Proofs.Document.Contents
import UiDoc.Proofs.Registry.Memo
import UiDoc.Validation.Document

/-!
# Documents about which nothing is said

A validator that says nothing about expressions and types has looked at every expression and every
type of the document, and found that the first can be evaluated and the second are offered.
-/

namespace UiDoc

open Registry (Alike Coherent)

/-- Whether an issue of the rule is about an expression or a type. -/
def Rule.foresees : Rule → Bool
  | emptyCondition | unsupportedExpression | unknownType | deprecated => true
  | _ => false

/-- A type is known and not deprecated. -/
def Registry.Offers (files : Files) (s : Registry) (kind : String) : Prop :=
  (∃ renderable, ((Registry.resolve files kind).run s).1 = some renderable) ∧
    (s.entry? kind).filter RegistryEntry.isDeprecated = none

/-- The expressions of a component can be evaluated, and its type is offered. -/
structure Component.Foreseen (files : Files) (s : Registry) (c : Component) : Prop where
  supported : ∀ expression ∈ c.expressions, Expr.isSupported expression = true
  kind : c.kind = "" ∨ c.isSlot = true ∨ s.Offers files c.kind

/-- Every template of a component that is foreseen is supported. -/
theorem Component.Foreseen.template {files : Files} {s : Registry} {c : Component}
    (foreseen : c.Foreseen files s) : ∀ template ∈ c.templates, Template.Supported template :=
  fun template member expression inside => foreseen.supported expression
    (List.mem_append_right _ (List.mem_flatMap.2 ⟨template, member, inside⟩))

namespace Validation

/-- No issue is about an expression or a type. -/
def Silent (issues : List Issue) : Prop :=
  ∀ issue ∈ issues, issue.rule.foresees = false

@[simp] theorem silent_append {front back : List Issue} :
    Silent (front ++ back) ↔ Silent front ∧ Silent back :=
  List.forall_mem_append

theorem not_silent_singleton {issue : Issue} (foresees : issue.rule.foresees = true) :
    ¬ Silent [issue] := by
  intro silent
  have spared := silent issue (List.mem_singleton_self issue)
  rw [foresees] at spared
  cases spared

theorem silent_flatMap {α : Type} {list : List α} {issues : α → List Issue} :
    Silent (list.flatMap issues) ↔ ∀ x ∈ list, Silent (issues x) := by
  simp only [Silent, List.mem_flatMap]
  grind

/-! ## Texts -/

variable {place : Place}

theorem Silent.expression {text : String} (silent : Silent (ofExpression place text)) :
    Expr.isSupported text = true := by
  simp only [ofExpression] at silent
  split at silent
  · rename_i supported
    exact supported
  · exact absurd silent (not_silent_singleton rfl)

theorem Silent.template {template : String} (silent : Silent (ofTemplate place template)) :
    Template.Supported template :=
  fun expression member => (silent_flatMap.1 silent expression member).expression

theorem Silent.record {declared : Record Json} (silent : Silent (ofRecord place declared)) :
    ∀ template ∈ declared.texts, Template.Supported template := by
  intro template member
  rcases List.mem_filterMap.1 member with ⟨⟨name, value⟩, declares, text⟩
  have said := silent_flatMap.1 silent _ declares
  cases value with
  | str other =>
      cases text
      exact said.template
  | null | bool | num | arr | obj => cases text

theorem Silent.ofOption {α : Type} {issues : α → List Issue} {o : Option α} {x : α}
    (silent : Silent (ofOption issues o)) (present : o = some x) : Silent (issues x) := by
  subst present
  exact silent

theorem Silent.condition {condition : String} (silent : Silent (ofCondition place condition)) :
    Expr.isSupported condition = true := by
  simp only [ofCondition] at silent
  split at silent
  · exact absurd silent (not_silent_singleton rfl)
  · exact silent.expression

theorem Silent.props {c : Component} (silent : Silent (ofProps place c)) :
    ∀ template ∈ c.props.texts ++ c.className.toList ++ (c.style.map Record.texts).getD [],
      Template.Supported template := by
  simp only [ofProps, silent_append] at silent
  obtain ⟨⟨⟨⟨props, className⟩, style⟩, -⟩, -⟩ := silent
  intro template member
  simp only [List.mem_append, Option.mem_toList] at member
  rcases member with (declared | named) | styled
  · exact props.record template declared
  · exact (className.ofOption named).template
  · cases declares : c.style with
    | none => simp [declares] at styled
    | some fields =>
        rw [declares] at styled
        exact (style.ofOption declares).record template styled

theorem Silent.loop {l : Loop} {children : Option Content} {condition : String}
    (silent : Silent (ofLoop place l children)) (declares : l.condition = some condition) :
    Expr.isSupported condition = true := by
  simp only [ofLoop, silent_append] at silent
  exact (silent.1.2.ofOption declares).expression

/-! ## Inspections -/

variable {files : Files} {s : Registry}

/-- The validator asks a registry with these registrations. -/
def Asks (files : Files) (s : Registry) (state : Inspection) : Prop :=
  ∃ r, state.registry = some r ∧ Coherent files r ∧ Alike files s r

/-- If the act has nothing to say, the fact holds. -/
def Finds (files : Files) (s : Registry) (act : Inspecting (List Issue)) (fact : Prop) : Prop :=
  ∀ state, Asks files s state →
    Asks files s (act.run state).2 ∧ (Silent (act.run state).1 → fact)

variable {fact other : Prop}

theorem finds_pure {issues : List Issue} (implies : Silent issues → fact) :
    Finds files s (pure issues) fact :=
  fun _ asks => ⟨asks, implies⟩

theorem Finds.bind {act : Inspecting (List Issue)} {next : List Issue → Inspecting (List Issue)}
    (first : Finds files s act other)
    (second : ∀ issues, (Silent issues → other) → Finds files s (next issues) fact) :
    Finds files s (act >>= next) fact := by
  intro state asks
  obtain ⟨asksNext, implies⟩ := first state asks
  exact second _ implies _ asksNext

theorem registry_ofId (place : Place) (id : String) (state : Inspection) :
    ((ofId place id).run state).2.registry = state.registry := by
  simp only [ofId, StateT.run_bind, StateT.run_get, pure_bind]
  split
  · rfl
  · split <;> rfl

theorem finds_id (place : Place) (id : String) : Finds files s (ofId place id) True := by
  intro state asks
  refine ⟨?_, fun _ => trivial⟩
  rw [Asks, registry_ofId]
  exact asks

theorem Silent.answer {kind : String} {r : Registry} {found : Option Renderable}
    (silent : Silent (ofAnswer place kind r found)) :
    (∃ renderable, found = some renderable) ∧
      (r.entry? kind).filter RegistryEntry.isDeprecated = none := by
  simp only [ofAnswer] at silent
  cases found with
  | none => exact absurd silent (not_silent_singleton rfl)
  | some renderable =>
      refine ⟨⟨renderable, rfl⟩, ?_⟩
      cases entry : (r.entry? kind).filter RegistryEntry.isDeprecated with
      | none => rfl
      | some old =>
          simp only [entry] at silent
          exact absurd silent (not_silent_singleton rfl)

theorem run_ofType (place : Place) (c : Component) {state : Inspection} {r : Registry}
    (holds : state.registry = some r) :
    (ofType files place c).run state =
      if c.kind = "" || c.isSlot then ([], state)
      else
        let (found, asked) := (Registry.resolve files c.kind).run r
        (ofAnswer place c.kind asked found, { state with registry := some asked }) := by
  simp only [ofType, StateT.run_bind, StateT.run_get, pure_bind, holds]
  split <;> rfl

/-- A type about which nothing is said is offered. -/
theorem finds_type (constant : s.Constant) (coherent : Coherent files s) (place : Place)
    (c : Component) :
    Finds files s (ofType files place c)
      (c.kind = "" ∨ c.isSlot = true ∨ s.Offers files c.kind) := by
  intro state asks
  obtain ⟨r, holds, coherentNow, alike⟩ := asks
  rw [run_ofType place c holds]
  split
  · rename_i skipped
    simp only [Bool.or_eq_true, decide_eq_true_eq] at skipped
    exact ⟨⟨r, holds, coherentNow, alike⟩, fun _ => skipped.imp_right .inl⟩
  · obtain ⟨found, asked, run, later, coherentLater, -⟩ :=
      Registry.resolve_run coherentNow c.kind
    have answer := Registry.resolve_alike alike constant coherent coherentNow c.kind
    rw [run] at answer ⊢
    refine ⟨⟨asked, rfl, coherentLater, alike.trans later.toAlike⟩, fun silent => ?_⟩
    obtain ⟨⟨renderable, known⟩, current⟩ := silent.answer
    have entry := Alike.entry? (alike.trans later.toAlike) c.kind
    exact .inr (.inr ⟨⟨renderable, answer.trans known⟩, entry ▸ current⟩)

/-! ## Components -/

/-- The validator has seen to texts and components. -/
structure Covers (files : Files) (s : Registry) (texts : List String) (list : List Component) :
    Prop where
  texts : ∀ template ∈ texts, Template.Supported template
  components : ∀ c ∈ list, ∀ d, c.Contains d → d.Foreseen files s

theorem covers_nil : Covers files s [] [] :=
  ⟨nofun, nofun⟩

theorem Covers.append {texts moreTexts : List String} {list more : List Component}
    (first : Covers files s texts list) (second : Covers files s moreTexts more) :
    Covers files s (texts ++ moreTexts) (list ++ more) :=
  ⟨List.forall_mem_append.2 ⟨first.texts, second.texts⟩,
    List.forall_mem_append.2 ⟨first.components, second.components⟩⟩

/-- What is found about a component apart from what is inside of it. -/
structure Head (files : Files) (s : Registry) (c : Component) : Prop where
  props : ∀ template ∈ c.props.texts ++ c.className.toList ++
    (c.style.map Record.texts).getD [], Template.Supported template
  kind : c.kind = "" ∨ c.isSlot = true ∨ s.Offers files c.kind

theorem finds_head (constant : s.Constant) (coherent : Coherent files s) (place : Place)
    (c : Component) : Finds files s (ofHead files place c) (Head files s c) := by
  apply (finds_id place c.id).bind
  intro forId _
  apply (finds_type constant coherent place c).bind
  intro forType offered
  apply finds_pure
  intro silent
  simp only [silent_append] at silent
  exact ⟨silent.1.2.props, offered silent.1.1.2⟩

/-- What is found about a component and what is inside of it. -/
structure Whole (files : Files) (s : Registry) (c : Component) : Prop extends Head files s c where
  conditional : ∀ k, c.conditional = some k →
    Expr.isSupported k.condition = true ∧ Covers files s k.texts k.components
  loop : ∀ l condition, c.loop = some l → l.condition = some condition →
    Expr.isSupported condition = true
  children : ∀ content, c.children = some content →
    Covers files s content.texts content.components

/-- What is declared in a part that may be absent is declared in the part. -/
theorem exists_of_mem_getD {α β : Type} {o : Option α} {f : α → List β} {b : β}
    (member : b ∈ (o.map f).getD []) : ∃ a, o = some a ∧ b ∈ f a := by
  cases o with
  | none => cases member
  | some a => exact ⟨a, rfl, member⟩

theorem Whole.foreseen {c : Component} (whole : Whole files s c) : c.Foreseen files s where
  kind := whole.kind
  supported := by
    intro expression member
    simp only [Component.expressions, Component.conditions, List.mem_append, Option.mem_toList,
      Option.map_eq_some_iff, Option.bind_eq_some_iff, List.mem_flatMap] at member
    rcases member with (⟨k, declares, rfl⟩ | ⟨l, repeats, declares⟩) | ⟨template, member, inside⟩
    · exact (whole.conditional k declares).1
    · exact whole.loop l expression repeats declares
    · suffices supported : Template.Supported template from supported expression inside
      rw [Component.templates, List.mem_append, List.mem_append] at member
      rcases member with (own | branch) | child
      · exact whole.props template own
      · obtain ⟨k, declares, inside⟩ := exists_of_mem_getD branch
        exact (whole.conditional k declares).2.texts template inside
      · obtain ⟨content, declares, inside⟩ := exists_of_mem_getD child
        exact (whole.children content declares).texts template inside

theorem Whole.contains {c d : Component} (whole : Whole files s c) (contains : c.Contains d) :
    d.Foreseen files s := by
  cases contains with
  | self => exact whole.foreseen
  | inside part contains =>
      rcases List.mem_append.1 part with branch | child
      · obtain ⟨k, declares, inside⟩ := exists_of_mem_getD branch
        exact (whole.conditional k declares).2.components _ inside _ contains
      · obtain ⟨content, declares, inside⟩ := exists_of_mem_getD child
        exact (whole.children content declares).components _ inside _ contains

-- The registry that is asked changes on the way, but stays alike, so the induction is over the
-- document and for every state.
mutual

/-- A validator that has nothing to say about a component foresees everything in it. -/
theorem finds_component (constant : s.Constant) (coherent : Coherent files s) (place : Place)
    (c : Component) :
    Finds files s (ofComponent files place c) (∀ d, c.Contains d → d.Foreseen files s) := by
  match c with
  | { id, kind, props, className, style, bindings, dataBinding, events, conditional, loop,
      children } =>
      rw [ofComponent]
      apply (finds_head constant coherent place _).bind
      intro head headed
      apply (finds_conditional constant coherent (place.field "conditional") conditional).bind
      intro inConditional conditioned
      apply (finds_children constant coherent (place.field "children") children).bind
      intro inside filled
      apply finds_pure
      intro silent d contains
      simp only [silent_append] at silent
      have whole : Whole files s ⟨id, kind, props, className, style, bindings, dataBinding, events,
          conditional, loop, children⟩ := {
        headed silent.1.1.1 with
        conditional := conditioned silent.1.1.2
        loop := fun l condition repeats declares =>
          (silent.1.2.ofOption repeats).loop declares
        children := filled silent.2 }
      exact whole.contains contains

theorem finds_conditional (constant : s.Constant) (coherent : Coherent files s) (place : Place)
    (o : Option Conditional) :
    Finds files s (ofConditional files place o)
      (∀ k, o = some k → Expr.isSupported k.condition = true ∧
        Covers files s k.texts k.components) := by
  match o with
  | none => exact finds_pure nofun
  | some { condition, yes, no } =>
      rw [ofConditional]
      apply (finds_branch constant coherent (place.field "then") yes).bind
      intro inYes coversYes
      apply (finds_branch constant coherent (place.field "else") no).bind
      intro inNo coversNo
      apply finds_pure
      intro silent k same
      cases same
      simp only [silent_append] at silent
      exact ⟨silent.1.1.1.condition, (coversYes silent.1.2).append (coversNo silent.2)⟩

theorem finds_branch (constant : s.Constant) (coherent : Coherent files s) (place : Place)
    (b : Branch) :
    Finds files s (ofBranch files place b) (Covers files s b.texts b.components) := by
  match b with
  | .absent => exact finds_pure fun _ => covers_nil
  | .nothing => exact finds_pure fun _ => covers_nil
  | .content shown => exact finds_content constant coherent place shown

theorem finds_children (constant : s.Constant) (coherent : Coherent files s) (place : Place)
    (o : Option Content) :
    Finds files s (ofChildren files place o)
      (∀ content, o = some content → Covers files s content.texts content.components) := by
  match o with
  | none => exact finds_pure nofun
  | some content =>
      intro state asks
      obtain ⟨asksNext, covers⟩ := finds_content constant coherent place content state asks
      refine ⟨asksNext, fun silent other same => ?_⟩
      cases same
      exact covers silent

theorem finds_content (constant : s.Constant) (coherent : Coherent files s) (place : Place)
    (content : Content) :
    Finds files s (ofContent files place content)
      (Covers files s content.texts content.components) := by
  match content with
  | .text template =>
      refine finds_pure fun silent => ⟨fun other member => ?_, nofun⟩
      cases List.mem_singleton.1 member
      exact silent.template
  | .node c =>
      intro state asks
      obtain ⟨asksNext, foreseen⟩ := finds_component constant coherent place c state asks
      refine ⟨asksNext, fun silent => ⟨nofun, fun other member => ?_⟩⟩
      cases List.mem_singleton.1 member
      exact foreseen silent
  | .nodes list => exact finds_components constant coherent place 0 list

theorem finds_components (constant : s.Constant) (coherent : Coherent files s) (place : Place)
    (index : Nat) (list : List Component) :
    Finds files s (ofComponents files place index list) (Covers files s [] list) := by
  match list with
  | [] => exact finds_pure fun _ => covers_nil
  | c :: rest =>
      rw [ofComponents]
      apply (finds_component constant coherent (place.item index) c).bind
      intro first foreseen
      apply (finds_components constant coherent place (index + 1) rest).bind
      intro others covers
      apply finds_pure
      intro silent
      simp only [silent_append] at silent
      exact ⟨nofun, List.forall_mem_cons.2 ⟨foreseen silent.1, (covers silent.2).components⟩⟩

end

/-! ## Reports -/

/-- Errors, and three kinds of warnings, are all that is ever said of expressions and types. -/
theorem silent_of_report {issues : List Issue} (valid : (Report.ofIssues issues).valid = true)
    (unmentioned : ∀ issue ∈ (Report.ofIssues issues).warnings,
      issue.rule ∉ [.unsupportedExpression, .unknownType, .deprecated]) : Silent issues := by
  intro issue member
  have noError : issue.rule.isError = false := by
    simp only [Report.valid, Report.ofIssues, List.isEmpty_iff, List.filter_eq_nil_iff] at valid
    simpa using valid issue member
  have warned : issue ∈ (Report.ofIssues issues).warnings := by
    simp [Report.ofIssues, member, noError]
  have other := unmentioned issue warned
  cases rule : issue.rule <;> simp_all [Rule.foresees, Rule.isError]

end Validation

/-- A document whose report mentions no expression and no type is foreseen as a whole. -/
theorem Report.foreseen_of_valid {files : Files} {s : Registry} {document d : Component}
    (constant : s.Constant) (coherent : Coherent files s)
    (valid : (Report.ofDocument files (some s) document).valid = true)
    (unmentioned : ∀ issue ∈ (Report.ofDocument files (some s) document).warnings,
      issue.rule ∉ [.unsupportedExpression, .unknownType, .deprecated])
    (contains : document.Contains d) : d.Foreseen files s := by
  have asks : Validation.Asks files s ⟨some s, []⟩ := ⟨s, rfl, coherent, .refl files s⟩
  have found := (Validation.finds_component constant coherent .root document _ asks).2
  exact found (Validation.silent_of_report valid unmentioned) d contains

end UiDoc
