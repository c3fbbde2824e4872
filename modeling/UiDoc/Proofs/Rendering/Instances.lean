import UiDoc.Proofs.Rendering.Chains
import UiDoc.Proofs.Rendering.Handlers

/-!
# Handlers of instances

An instance of a definition has no element of its own, so its handlers go to the first node of what
the definition is rendered to.  They get there if this node is an element, as it always is where the
definition shows a component with a type.  They leave no trace where it is a group or a text.
-/

namespace UiDoc

/-! ## Attaching handlers -/

namespace Node

variable (handlers : List BoundHandler) {nodes : List Node}

@[simp] theorem attachToFirst_nil (nodes : List Node) : attachToFirst [] nodes = nodes := by
  simp only [attachToFirst]
  split
  · rename_i e rest
    cases e
    simp [Element.attach, BoundHandler.clear]
  · rfl

/-- Where the first node is no element, handlers are not attached. -/
theorem attachToFirst_of_first (other : ∀ e rest, nodes ≠ .element e :: rest) :
    attachToFirst handlers nodes = nodes := by
  unfold attachToFirst
  split
  · exact absurd rfl (other _ _)
  · rfl

/-- An element that stands first afterwards has all of the handlers, behind its own ones. -/
theorem handlers_of_attachToFirst {e : Element} {rest : List Node}
    (first : attachToFirst handlers nodes = .element e :: rest) :
    (∃ bare, nodes = .element bare :: rest) ∧ handlers <:+ e.handlers := by
  simp only [attachToFirst] at first
  split at first
  · cases first
    exact ⟨⟨_, rfl⟩, List.suffix_append _ handlers⟩
  · rename_i other
    exact absurd first (other e rest)

theorem mem_listHandlers_of_mem {nodes : List Node} {node : Node} {h : BoundHandler}
    (member : node ∈ nodes) (has : h ∈ node.allHandlers) : h ∈ listHandlers nodes := by
  induction nodes with
  | nil => cases member
  | cons first rest ih =>
      rcases List.mem_cons.1 member with rfl | later
      · exact List.mem_append_left _ has
      · exact List.mem_append_right _ (ih later)

/-- The handlers of every element are among all handlers of the nodes. -/
theorem Contains.mem_listHandlers {nodes : List Node} {e : Element} {h : BoundHandler}
    (contains : Contains nodes e) (has : h ∈ e.handlers) : h ∈ listHandlers nodes := by
  induction contains with
  | @here nodes e member =>
      apply mem_listHandlers_of_mem member
      cases e
      exact List.mem_append_left _ has
  | @inside nodes node e member contains ih =>
      apply mem_listHandlers_of_mem member
      cases node with
      | element outer =>
          cases outer
          exact List.mem_append_right _ (ih has)
      | fragment key children => exact ih has
      | text | fallback => exact ih has

end Node

namespace Render

open Rendering (run_bind_congr run_map run_resolve run_logged)

variable {setting : Setting} {below : Renderer} {c definition : Component} {name : String}
  {site : Site} {p q : Pass} {nodes : List Node}

/-! ## Instances without events -/

/-- What is rendered inside of a component depends on its loop and its children alone. -/
theorem children_congr (setting : Setting) (below : Renderer) {d : Component}
    (loop : c.loop = d.loop) (inside : c.children = d.children) (scope : Scope) (key : String)
    (site : Site) :
    children setting below c scope key site = children setting below d scope key site := by
  have once (scope : Scope) (key : String) (repeated : Bool) :
      childList below c scope key repeated site = childList below d scope key repeated site := by
    rw [childList, childList, inside]
  have each (list : List Slot) :
      slots below c scope key site list = slots below d scope key site list := by
    induction list with
    | nil => rfl
    | cons slot rest ih => rw [slots, slots, once, ih]
  simp only [children, loop, once, each]

theorem composite_eq (setting : Setting) (below : Renderer) (c : Component) (name : String)
    (definition : Component) (props : Record Json) (handlers : List BoundHandler) (scope : Scope)
    (key : String) (site : Site) :
    composite setting below c name definition props handlers scope key site =
      Node.attachToFirst handlers <$>
        composite setting below c name definition props [] scope key site := by
  simp only [composite]
  split
  · simp [Node.attachToFirst]
  · simp [map_bind]

theorem typed_of_no_events (setting : Setting) (below : Renderer) (c : Component)
    (props : Record Json) (scope : Scope) (key : String) (site : Site) :
    typed setting below { c with events := none } props [] scope key site =
      typed setting below c props [] scope key site := by
  let bare : Component := { c with events := none }
  have loop : bare.loop = c.loop := rfl
  have inside : bare.children = c.children := rfl
  have same (site : Site) := children_congr setting below loop inside scope key site
  simp only [bare] at same
  simp only [typed, composite, same]

theorem run_typed_instance (props : Record Json) (handlers : List BoundHandler) (scope : Scope)
    (key : String)
    (stands : ((Registry.resolve setting.files c.kind).run p.registry).1 =
      some (.composite name definition)) :
    (typed setting below c props handlers scope key site).run.run p =
      (Node.attachToFirst handlers <$>
        typed setting below c props [] scope key site).run.run p := by
  rw [typed, typed, map_bind]
  apply run_bind_congr
  intro found q run
  rw [run_resolve] at run
  cases run
  rw [stands]
  dsimp only
  rw [map_bind]
  exact run_bind_congr fun _ q _ => by rw [composite_eq]

/-- An instance is rendered as the same instance without events, whose first node then gets the
handlers. -/
theorem run_component_instance
    (instantiates : c.Instantiates setting.files p.registry name definition) (scope : Scope)
    (key : String) :
    (component setting below c scope key site).run.run p =
      (Node.attachToFirst (c.boundHandlers scope) <$>
        component setting below { c with events := none } scope key site).run.run p := by
  let bare : Component := { c with events := none }
  have plain : bare.conditional = none := instantiates.plain
  have other : ¬ bare.isSlot = true := instantiates.other
  have named : bare.kind ≠ "" := instantiates.named
  rw [component_eq, component_eq, map_bind]
  apply run_bind_congr
  intro cut q gated
  cases cut with
  | some nodes =>
      have first : ∀ e rest, nodes ≠ .element e :: rest := by
        rintro e rest rfl
        exact run_gate_eq_ok gated e (List.mem_cons_self ..)
      dsimp only
      rw [map_pure, Node.attachToFirst_of_first _ first]
  | none =>
      obtain ⟨registry, -⟩ := run_gate_eq_ok gated
      dsimp only
      rw [run_map, run_admitted setting below plain other, ← run_map,
        run_admitted setting below instantiates.plain instantiates.other, itself, itself, map_bind]
      apply run_bind_congr
      intro props r resolved
      have stands : ((Registry.resolve setting.files c.kind).run r.registry).1 =
          some (.composite name definition) := by
        rw [run_logged] at resolved
        cases resolved
        exact registry ▸ instantiates.stands
      have unhandled : typed setting below bare props (bare.boundHandlers scope) scope key site =
          typed setting below c props [] scope key site :=
        typed_of_no_events setting below c props scope key site
      rw [if_neg instantiates.named, if_neg named, unhandled]
      exact run_typed_instance props (c.boundHandlers scope) scope key stands

/-- What an instance produces are the nodes that it produces without events, with the handlers
attached to the first of them. -/
theorem exists_of_run_instance {levels : Nat} {scope : Scope} {key : String}
    (instantiates : c.Instantiates setting.files p.registry name definition)
    (run : (upTo setting levels c scope key site).run.run p = (.ok nodes, q)) :
    ∃ bare, (upTo setting levels { c with events := none } scope key site).run.run p =
        (.ok bare, q) ∧ Node.attachToFirst (c.boundHandlers scope) bare = nodes := by
  have same : (upTo setting levels c scope key site).run.run p =
      Prod.map (Except.map (Node.attachToFirst (c.boundHandlers scope))) id
        ((upTo setting levels { c with events := none } scope key site).run.run p) := by
    rw [← run_map]
    cases levels <;> exact run_component_instance instantiates scope key
  rw [run] at same
  cases bare : (upTo setting levels { c with events := none } scope key site).run.run p with
  | mk result r =>
      rw [bare] at same
      cases result with
      | error h => cases same
      | ok nodes =>
          cases same
          exact ⟨nodes, rfl, rfl⟩

end Render

/-! ## Definitions with a root of their own -/

/-- The component has a type, other than that of a slot, or shows such components in its place. -/
inductive Component.Rooted : Component → Prop where
  | typed {c : Component} : c.conditional = none → ¬ c.isSlot = true → c.kind ≠ "" → Rooted c
  | shown {c : Component} {x : Conditional} : c.conditional = some x → x.texts = [] →
      (∀ d ∈ x.components, Rooted d) → Rooted c

/-- The nodes begin with an element, or with the mark of a limit, if there are any. -/
inductive Node.Headed : List Node → Prop where
  | nil : Headed []
  | element (e : Element) (rest : List Node) : Headed (.element e :: rest)
  | fallback (nodeId : String) (depth : Nat) (rest : List Node) :
      Headed (.fallback nodeId depth :: rest)

namespace Node.Headed

variable {nodes more : List Node}

theorem append (first : Headed nodes) (second : Headed more) : Headed (nodes ++ more) := by
  cases first with
  | nil => exact second
  | element e rest => exact .element e (rest ++ more)
  | fallback nodeId depth rest => exact .fallback nodeId depth (rest ++ more)

theorem attachToFirst (headed : Headed nodes) (handlers : List BoundHandler) :
    Headed (Node.attachToFirst handlers nodes) := by
  cases headed with
  | nil => exact .nil
  | element e rest => exact .element _ rest
  | fallback nodeId depth rest => exact .fallback nodeId depth rest

/-- Without a mark, the first node is an element if there is an element at all. -/
theorem exists_element (headed : Headed nodes)
    (unmarked : ∀ nodeId depth, .fallback nodeId depth ∉ nodes) {e : Element}
    (contains : Contains nodes e) : ∃ first rest, nodes = .element first :: rest := by
  cases headed with
  | nil => cases contains <;> contradiction
  | element first rest => exact ⟨first, rest, rfl⟩
  | fallback nodeId depth rest => exact absurd (List.mem_cons_self ..) (unmarked nodeId depth)

end Node.Headed

/-- The branch that a rooted component shows holds rooted components. -/
theorem Component.Rooted.branch {c : Component} {content : Content} (rooted : c.Rooted)
    (shown : (Outcome.branch content).Of c) :
    content.texts = [] ∧ ∀ d ∈ content.components, d.Rooted := by
  obtain ⟨conditional, given, side⟩ := shown
  cases rooted with
  | typed plain => rw [plain] at given; cases given
  | shown given' silent inside =>
      rw [given] at given'
      cases given'
      obtain ⟨silentYes, silentNo⟩ := List.append_eq_nil_iff.1 silent
      obtain ⟨insideYes, insideNo⟩ := List.forall_mem_append.1 inside
      rcases side with yes | no
      · rw [yes] at silentYes insideYes
        exact ⟨silentYes, insideYes⟩
      · rw [no] at silentNo insideNo
        exact ⟨silentNo, insideNo⟩

/-- What is said of all definitions that the registry knows of can always be said of them. -/
theorem Rendering.defines_congruence (files : Files) (holds : Component → Prop) :
    Congruence files fun x _ => Keeps (fun p => p.registry.Defines files holds) x :=
  keeps_congruence (fun _ _ defines => defines) (fun kind _ defines => (defines.resolve kind).1)
    fun c depth p defines => by
      obtain ⟨result, notes, run, -⟩ := Render.run_gate c depth p
      rw [run]
      exact defines

namespace Render

open Node (Headed)
open Rendering (Congruence Delivers Keeps delivers_pure delivers_logged_bind delivers_defined
  delivers_warnDeprecated delivers_outcome delivers_branch delivers_component delivers_of_keeps)

/-- The renderer heads what rooted components are rendered to with an element. -/
structure Heads (files : Files) (below : Renderer) : Prop where
  keeps : ∀ site, Congruence.At
    (fun x _ => Keeps (fun p => p.registry.Defines files Component.Rooted) x) below below site
  heads : ∀ c scope key site, c.Rooted →
    Delivers (Registry.Defines files Component.Rooted) (below c scope key site) Headed

namespace Heads

variable {files : Files} {setting : Setting} {below : Renderer} {c definition : Component}

theorem children (inner : Heads setting.files below) (c : Component) (scope : Scope) (key : String)
    (site : Site) :
    Delivers (Registry.Defines setting.files Component.Rooted)
      (children setting below c scope key site) fun _ => True := by
  have rel := Rendering.defines_congruence setting.files Component.Rooted
  exact delivers_of_keeps (rel.children (inner.keeps site) c scope key)

theorem composite (inner : Heads setting.files below) (rooted : definition.Rooted) (c : Component)
    (name : String) (props : Record Json) (handlers : List BoundHandler) (scope : Scope)
    (key : String) (site : Site) :
    Delivers (Registry.Defines setting.files Component.Rooted)
      (composite setting below c name definition props handlers scope key site) Headed := by
  unfold Render.composite
  split
  · exact delivers_logged_bind fun _ => delivers_pure .nil
  · exact (inner.children c scope key site.deeper).bind fun slot _ =>
      (inner.heads definition _ key _ rooted).bind fun nodes headed =>
        delivers_pure (headed.attachToFirst handlers)

/-- A type stands for an element, or for a definition that is headed by one. -/
theorem typed (inner : Heads setting.files below) (c : Component) (props : Record Json)
    (handlers : List BoundHandler) (scope : Scope) (key : String) (site : Site) :
    Delivers (Registry.Defines setting.files Component.Rooted)
      (typed setting below c props handlers scope key site) Headed := by
  refine (delivers_defined setting.files Component.Rooted c.kind).bind fun found has => ?_
  cases found with
  | none => exact delivers_logged_bind fun _ => delivers_pure .nil
  | some renderable =>
      refine (delivers_warnDeprecated c.kind).bind fun _ _ => ?_
      cases renderable with
      | composite name definition =>
          exact inner.composite (has _ rfl) c name props handlers scope key site
      | element tag tier | icon name =>
          exact (inner.children c scope key site.deeper).bind fun nodes _ =>
            delivers_pure (.element _ [])

theorem admitted (inner : Heads setting.files below) (rooted : c.Rooted) (scope : Scope)
    (key : String) (site : Site) :
    Delivers (Registry.Defines setting.files Component.Rooted)
      (admitted setting below c scope key site) Headed := by
  refine (delivers_outcome c scope).bind fun outcome declared => ?_
  cases outcome with
  | empty reason => exact delivers_pure .nil
  | branch content =>
      obtain ⟨silent, inside⟩ := rooted.branch declared
      apply delivers_branch .nil (fun _ _ => Headed.append) (.inl silent)
      exact fun d member key => inner.heads d scope key site.deeper (inside d member)
  | unconditional =>
      have plain : c.conditional = none := declared
      cases rooted with
      | shown given =>
          rw [plain] at given
          cases given
      | typed _ other named =>
          dsimp only
          rw [if_neg other]
          refine delivers_logged_bind fun props => ?_
          rw [if_neg named]
          exact inner.typed c props _ scope key site

theorem component (inner : Heads setting.files below) (rooted : c.Rooted) (scope : Scope)
    (key : String) (site : Site) :
    Delivers (Registry.Defines setting.files Component.Rooted)
      (component setting below c scope key site) Headed :=
  delivers_component .nil (fun nodeId depth => .fallback nodeId depth [])
    (inner.admitted rooted scope key site)

end Heads

theorem heads_upTo (setting : Setting) (levels : Nat) :
    Heads setting.files (upTo setting levels) := by
  have rel := Rendering.defines_congruence setting.files Component.Rooted
  induction levels with
  | zero =>
      have nothing : Heads setting.files fun _ _ _ _ => pure [] :=
        ⟨fun _ _ _ _ => rel.pure [], fun _ _ _ _ _ => delivers_pure .nil⟩
      exact ⟨rel.upTo 0, fun _ scope key site rooted => nothing.component rooted scope key site⟩
  | succ levels ih =>
      exact ⟨rel.upTo (levels + 1),
        fun _ scope key site rooted => ih.component rooted scope key site⟩

/-! ## Where the handlers go -/

variable {setting : Setting} {levels : Nat} {c definition : Component} {name : String}
  {scope : Scope} {key : String} {site : Site} {p q : Pass} {nodes : List Node}

theorem exists_composite {found : Option Renderable}
    (composite : (found.bind fun renderable =>
      match renderable with
      | .composite name _ => some name
      | _ => none) = some name) : ∃ definition, found = some (.composite name definition) := by
  obtain ⟨renderable, rfl, same⟩ := Option.bind_eq_some_iff.1 composite
  cases renderable with
  | composite other definition =>
      cases same
      exact ⟨definition, rfl⟩
  | element | icon => cases same

/-- If what an instance produces begins with an element, this element has all handlers of the
instance.  Otherwise nothing has them: the instance produces what it produces without events.  And
where all definitions have a root of their own, it begins with an element if there is an element at
all, unless a limit is in the way. -/
theorem carried_upTo (instantiates : c.Instantiates setting.files p.registry name definition)
    (run : (upTo setting levels c scope key site).run.run p = (.ok nodes, q)) :
    (∀ e rest, nodes = .element e :: rest → c.boundHandlers scope <:+ e.handlers) ∧
      ((∀ e rest, nodes ≠ .element e :: rest) →
        (upTo setting levels { c with events := none } scope key site).run.run p =
          (.ok nodes, q)) ∧
      (p.registry.Defines setting.files Component.Rooted →
        (∀ nodeId depth, .fallback nodeId depth ∉ nodes) →
        ∀ d, Node.Contains nodes d → ∃ e rest, nodes = .element e :: rest) := by
  obtain ⟨bare, runBare, attached⟩ := exists_of_run_instance instantiates run
  refine ⟨?_, ?_, ?_⟩
  · rintro e rest rfl
    exact (Node.handlers_of_attachToFirst _ attached).2
  · intro other
    have first : ∀ e rest, bare ≠ .element e :: rest := by
      rintro e rest rfl
      exact other _ rest attached.symm
    rw [Node.attachToFirst_of_first _ first] at attached
    rw [runBare, attached]
  · intro defines unmarked d contains
    have rooted : c.Rooted :=
      .typed instantiates.plain instantiates.other instantiates.named
    have heads := (heads_upTo setting levels).heads c scope key site rooted
    exact (heads p nodes q defines run).2.exists_element unmarked contains

/-- A definition whose conditional shows an instance of another one, in which an element stands. -/
theorem carried_upTo_shown :
    let event (name id : String) : Option EventsField :=
      some (.byName [(name, .one (.actionId id))])
    let panel : Component := { kind := "section", events := event "focus" "note" }
    let inner : Component := { kind := "Panel", events := event "hover" "look" }
    let shown : Conditional := {
      condition := "true", yes := .content (.node inner), no := .nothing }
    let c : Component := { kind := "Card", events := event "click" "go" }
    let scope : Scope := { data := .null }
    let registry := (Registry.builtin.registerDefinition "Card"
      (.parsed { conditional := some shown })).registerDefinition "Panel" (.parsed panel)
    let setting : Setting := ⟨{}, false⟩
    let p := (Interpreter.ofConfig {} registry 0).beginPass 0
    ∃ nodes q e rest, (upTo setting 5 c scope "root" {}).run.run p = (.ok nodes, q) ∧
      nodes = .element e :: rest ∧ (c.boundHandlers scope).length = 1 ∧
      c.boundHandlers scope <:+ e.handlers := by
  intro event panel inner shown c scope registry setting p
  obtain ⟨nodes, d, q, run, member⟩ : ∃ nodes d q,
      (upTo setting 5 c scope "root" {}).run.run p = (.ok nodes, q) ∧ .element d ∈ nodes :=
    exists_element (by decide +kernel)
  obtain ⟨definition, stands⟩ : ∃ definition,
      ((Registry.resolve setting.files c.kind).run p.registry).1 =
        some (.composite "Card" definition) :=
    exists_composite (by decide +kernel)
  have instantiates : c.Instantiates setting.files p.registry "Card" definition :=
    ⟨rfl, by decide, stands⟩
  have rooted : Component.Rooted { conditional := some shown } :=
    .shown rfl rfl (List.forall_mem_singleton.2 (.typed rfl (by decide) (by decide)))
  have rootedPanel : panel.Rooted := .typed rfl (by decide) (by decide)
  have defines : registry.Defines {} Component.Rooted := by
    apply Registry.Defines.registerDefinition
    · apply (Registry.defines_builtin _ _).registerDefinition
      rintro _ ⟨⟩
      exact rooted
    · rintro _ ⟨⟩
      exact rootedPanel
  have elements : (((upTo setting 5 c scope "root" {}).run.run p).1.toOption.getD []).all
      (fun node => node.element?.isSome) = true := by decide +kernel
  have unmarked : ∀ nodeId depth, .fallback nodeId depth ∉ nodes := by
    intro nodeId depth marked
    rw [run] at elements
    cases List.all_eq_true.1 elements _ marked
  have placed := carried_upTo instantiates run
  obtain ⟨e, rest, first⟩ := placed.2.2 defines unmarked d (.here member)
  exact ⟨nodes, q, e, rest, run, first, by decide +kernel, placed.1 e rest first⟩

end Render

namespace Interpreter

/-- A definition that is a group drops the handlers of its instance, and nothing tells of it. -/
theorem not_carried_render :
    let root : Component := {
      kind := "Card", events := some (.byName [("click", .one (.actionId "go"))]) }
    let definition : Component := { children := some (.nodes [{ kind := "div" }]) }
    let registry := Registry.builtin.registerDefinition "Card" (.parsed definition)
    let request : Request := { root, data := .obj [] }
    let output := ((Interpreter.ofConfig {} registry 0).render {} 0 request).1
    output.diagnostics.entries = [] ∧ (∃ e, Node.Contains output.nodes e) ∧
      ∀ e, Node.Contains output.nodes e →
        ¬ ∀ h ∈ root.boundHandlers request.scope, h ∈ e.handlers := by
  intro root definition registry request output
  have inside : ((output.nodes.flatMap Node.inner).filterMap Node.element?).isEmpty = false := by
    decide +kernel
  have lost : (Node.listHandlers output.nodes).isEmpty = true := by decide +kernel
  have bound : (root.boundHandlers request.scope).isEmpty = false := by decide +kernel
  refine ⟨by decide +kernel, ?_, ?_⟩
  · obtain ⟨e, listed⟩ := List.exists_mem_of_ne_nil _ (List.isEmpty_eq_false_iff.1 inside)
    obtain ⟨group, member, child⟩ :=
      List.mem_flatMap.1 (Node.element_mem_of_mem_filterMap listed)
    exact ⟨e, .inside member (.here child)⟩
  · intro e contains all
    obtain ⟨h, member⟩ := List.exists_mem_of_ne_nil _ (List.isEmpty_eq_false_iff.1 bound)
    have kept := contains.mem_listHandlers (all h member)
    rw [List.isEmpty_iff.1 lost] at kept
    cases kept

end Interpreter

end UiDoc
