import UiDoc.Interpreter
import UiDoc.Proofs.Document.Names
import UiDoc.Proofs.Registry.Definitions
import UiDoc.Proofs.Rendering.Keys
import UiDoc.Proofs.Rendering.Properties
import UiDoc.Proofs.Rendering.Results

/-!
# Handlers and properties

Wherever a handler is attached to an element, the property of that name gives way to it.  An element
is made with handlers of its own, and gets those of the instances around it later on, one instance
after the other.  In between it may have been placed in a slot, as often as there are slots.
-/

namespace UiDoc

/-! ## Properties without repetition -/

namespace Component

open Logged (always_pure always_bind)

variable {c : Component} {props : Record Json}

theorem always_recordOf (scope : Scope) (declared : Record Json) :
    (Template.recordOf scope declared).Always fun filled => filled.names = declared.names := by
  induction declared with
  | nil => exact always_pure rfl
  | cons field rest ih =>
      exact always_bind _ fun _ => ih.bind fun _ same => always_pure (congrArg (field.1 :: ·) same)

theorem always_applyBindings (devMode : Bool) (scope : Scope) (bindings : Record Binding)
    (distinct : props.names.Nodup) :
    (applyBindings devMode scope bindings props).Always fun bound => bound.names.Nodup := by
  induction bindings generalizing props with
  | nil => exact always_pure distinct
  | cons field rest ih =>
      apply always_bind
      rintro (_ | value)
      · exact ih (Record.nodup_names_erase distinct field.1)
      · exact ih (Record.nodup_names_insert value distinct)

theorem always_applyDataBinding (devMode : Bool) (scope : Scope) (c : Component)
    (distinct : props.names.Nodup) :
    (c.applyDataBinding devMode scope props).Always fun filled => filled.names.Nodup := by
  rw [applyDataBinding]
  split
  · exact always_pure distinct
  · apply always_bind
    rintro (_ | value)
    · exact always_pure distinct
    · exact always_pure (Record.nodup_names_insert value distinct)

theorem nodup_names_addClassName (own : String) (distinct : props.names.Nodup) :
    (addClassName own props).names.Nodup := by
  rw [addClassName]
  split
  · exact distinct
  · exact Record.nodup_names_insert _ distinct

theorem always_applyClassName (scope : Scope) (c : Component) (distinct : props.names.Nodup) :
    (c.applyClassName scope props).Always fun classed => classed.names.Nodup := by
  rw [applyClassName]
  split
  · exact always_pure distinct
  · exact always_bind _ fun own => always_pure (nodup_names_addClassName _ distinct)

theorem always_applyStyle (scope : Scope) (c : Component) (distinct : props.names.Nodup) :
    (c.applyStyle scope props).Always fun styled => styled.names.Nodup := by
  rw [applyStyle]
  split
  · exact always_pure distinct
  · exact always_bind _ fun own => always_pure (Record.nodup_names_insert _ distinct)

/-- The properties of a component are told apart by their names, at every stage. -/
theorem always_resolveProps (devMode : Bool) (scope : Scope) (distinct : c.props.names.Nodup) :
    (c.resolveProps devMode scope).Always fun props => props.names.Nodup := by
  refine (always_recordOf scope c.props).bind fun declared same => ?_
  have distinct : declared.names.Nodup := same ▸ distinct
  refine (always_applyBindings devMode scope c.bindings distinct).bind fun bound distinct => ?_
  refine (always_applyDataBinding devMode scope c distinct).bind fun filled distinct => ?_
  exact (always_applyClassName scope c distinct).bind fun classed distinct =>
    always_applyStyle scope c distinct

end Component

/-! ## Elements without shadowed handlers -/

namespace BoundHandler

theorem stores_self {props : Record Json} (distinct : props.names.Nodup) :
    props.Stores props.find? :=
  ⟨distinct, fun _ => rfl⟩

/-- What is left are the properties that no handler is attached to. -/
theorem mem_names_clear (handlers : List BoundHandler) {props : Record Json}
    (distinct : props.names.Nodup) {name : String} :
    name ∈ (clear handlers props).names ↔ name ∈ props.names ∧ name ∉ handlers.map hostName := by
  have stores := stores_clear handlers (stores_self distinct)
  have absent : name ∉ (clear handlers props).names ↔
      name ∈ handlers.map hostName ∨ name ∉ props.names := by
    rw [← Record.find?_eq_none, stores.find?, ite_eq_left_iff, Record.find?_eq_none,
      Decidable.imp_iff_not_or, Decidable.not_not]
  rw [← Decidable.not_iff_not, absent, Decidable.not_and_iff_not_or_not, Decidable.not_not, or_comm]

theorem nodup_names_clear (handlers : List BoundHandler) {props : Record Json}
    (distinct : props.names.Nodup) : (clear handlers props).names.Nodup :=
  (stores_clear handlers (stores_self distinct)).distinct

end BoundHandler

/-- The properties have distinct names, and no handler is attached to one of them. -/
structure Element.Unshadowed (e : Element) : Prop where
  distinct : e.props.names.Nodup
  free : ∀ h ∈ e.handlers, h.hostName ∉ e.props.names

namespace Element.Unshadowed

variable {e : Element}

/-- An element that is made with handlers. -/
theorem of_clear {props : Record Json} (distinct : props.names.Nodup)
    (cleared : e.props = BoundHandler.clear e.handlers props) : e.Unshadowed := by
  constructor
  · rw [cleared]
    exact BoundHandler.nodup_names_clear e.handlers distinct
  · intro h member present
    rw [cleared, BoundHandler.mem_names_clear e.handlers distinct] at present
    exact present.2 (List.mem_map_of_mem member)

/-- Handlers that an element gets later on. -/
theorem attach (unshadowed : e.Unshadowed) (handlers : List BoundHandler) :
    (e.attach handlers).Unshadowed := by
  constructor
  · exact BoundHandler.nodup_names_clear handlers unshadowed.distinct
  · intro h member present
    obtain ⟨declared, others⟩ :=
      (BoundHandler.mem_names_clear handlers unshadowed.distinct).1 present
    rcases List.mem_append.1 member with own | further
    · exact unshadowed.free h own declared
    · exact others (List.mem_map_of_mem further)

end Element.Unshadowed

namespace Node

/-- The element is one of the nodes, or inside of one of them. -/
inductive Contains : (nodes : List Node) → Element → Prop where
  | here {nodes : List Node} {e : Element} : .element e ∈ nodes → Contains nodes e
  | inside {nodes : List Node} {node : Node} {e : Element} : node ∈ nodes →
      Contains node.inner e → Contains nodes e

/-- No property stands in place of a handler, in none of the elements. -/
def Unshadowed (nodes : List Node) : Prop :=
  ∀ e, Contains nodes e → e.Unshadowed

variable {nodes more : List Node}

theorem unshadowed_iff : Unshadowed nodes ↔ ∀ node ∈ nodes,
    (∀ e, node = .element e → e.Unshadowed) ∧ Unshadowed node.inner := by
  constructor
  · intro unshadowed node member
    constructor
    · rintro e rfl
      exact unshadowed e (.here member)
    · exact fun e contains => unshadowed e (.inside member contains)
  · intro each e contains
    cases contains with
    | here member => exact (each _ member).1 e rfl
    | inside member contains => exact (each _ member).2 e contains

theorem unshadowed_nil : Unshadowed [] :=
  unshadowed_iff.2 (List.forall_mem_nil _)

theorem Unshadowed.append (first : Unshadowed nodes) (second : Unshadowed more) :
    Unshadowed (nodes ++ more) :=
  unshadowed_iff.2 (List.forall_mem_append.2 ⟨unshadowed_iff.1 first, unshadowed_iff.1 second⟩)

theorem unshadowed_cons {node : Node} : Unshadowed (node :: nodes) ↔
    ((∀ e, node = .element e → e.Unshadowed) ∧ Unshadowed node.inner) ∧ Unshadowed nodes := by
  rw [unshadowed_iff, List.forall_mem_cons, ← unshadowed_iff]

theorem unshadowed_text (text : String) : Unshadowed [.text text] :=
  unshadowed_cons.2 ⟨⟨nofun, unshadowed_nil⟩, unshadowed_nil⟩

theorem unshadowed_fallback (nodeId : String) (depth : Nat) : Unshadowed [.fallback nodeId depth] :=
  unshadowed_cons.2 ⟨⟨nofun, unshadowed_nil⟩, unshadowed_nil⟩

theorem unshadowed_group {inside : List Node} (key : String) (inner : Unshadowed inside)
    (rest : Unshadowed nodes) : Unshadowed (.fragment key inside :: nodes) :=
  unshadowed_cons.2 ⟨⟨nofun, inner⟩, rest⟩

theorem unshadowed_element {e : Element} (own : e.Unshadowed) (inner : Unshadowed e.children) :
    Unshadowed [.element e] := by
  refine unshadowed_cons.2 ⟨⟨?_, inner⟩, unshadowed_nil⟩
  rintro _ ⟨⟩
  exact own

/-- Handlers of an instance go to the first element. -/
theorem Unshadowed.attachToFirst (unshadowed : Unshadowed nodes) (handlers : List BoundHandler) :
    Unshadowed (attachToFirst handlers nodes) := by
  simp only [Node.attachToFirst]
  split
  · obtain ⟨⟨own, inner⟩, rest⟩ := unshadowed_cons.1 unshadowed
    refine unshadowed_cons.2 ⟨⟨?_, inner⟩, rest⟩
    rintro _ ⟨⟩
    exact (own _ rfl).attach handlers
  · exact unshadowed

end Node

/-! ## Rendering -/

/-- A definition that has not been parsed yet declares no property twice. -/
theorem DefinitionSource.distinct_of_parse? {files : Files} {source : DefinitionSource}
    {definition : Component} (unparsed : source.isUnparsed = true)
    (parsed : source.parse? files = some definition) : definition.Distinct := by
  have read {text : String} (reads : (Component.ofText text).toOption = some definition) :
      definition.Distinct := by
    cases result : Component.ofText text with
    | error e =>
        rw [result] at reads
        cases reads
    | ok c =>
        rw [result] at reads
        cases reads
        exact Component.distinct_of_ofText result
  cases source with
  | text text => exact read parsed
  | file location =>
      obtain ⟨text, -, reads⟩ := Option.bind_eq_some_iff.1 parsed
      exact read reads
  | parsed | broken => cases unparsed

/-- The nodes that stand in place of a slot have no shadowed handlers. -/
def Site.Unshadowed (site : Site) : Prop :=
  Node.Unshadowed (site.slot.getD [])

namespace Render

open Node (Unshadowed)
open Rendering (Delivers delivers_pure delivers_logged delivers_logged_bind delivers_defined
  delivers_warnDeprecated delivers_outcome delivers_components delivers_branch delivers_component)

/-- In all definitions that the registry knows of, properties have distinct names. -/
abbrev Distinguishes (files : Files) (r : Registry) : Prop :=
  r.Defines files Component.Distinct

/-- The renderer hands out elements without shadowed handlers, if there are no others in place of
the slot. -/
def Unshadows (files : Files) (below : Renderer) : Prop :=
  ∀ c scope key site, c.Distinct → site.Unshadowed →
    Delivers (Distinguishes files) (below c scope key site) Unshadowed

variable {setting : Setting} {files : Files} {below : Renderer} {site : Site} {c : Component}

namespace Unshadows

theorem childList (inner : Unshadows files below) (distinct : c.Distinct)
    (unshadowed : site.Unshadowed) (scope : Scope) (parent : String) (repeated : Bool) :
    Delivers (Distinguishes files) (childList below c scope parent repeated site) Unshadowed := by
  simp only [Render.childList]
  split
  · exact delivers_pure Node.unshadowed_nil
  · exact delivers_logged_bind fun filled => delivers_pure (Node.unshadowed_text filled)
  · rename_i content _ declares
    apply delivers_components Node.unshadowed_nil fun _ _ => Unshadowed.append
    intro d member key
    apply inner d scope key site (distinct.child ?_) unshadowed
    rw [Component.childNodes, declares]
    exact member

theorem slots (inner : Unshadows files below) (distinct : c.Distinct)
    (unshadowed : site.Unshadowed) (scope : Scope) (key : String) (list : List Slot) :
    Delivers (Distinguishes files) (slots below c scope key site list) Unshadowed := by
  induction list with
  | nil => exact delivers_pure Node.unshadowed_nil
  | cons slot rest ih =>
      have grouped {fill : Rendering (List Node)}
          (filled : Delivers (Distinguishes files) fill Unshadowed) :
          Delivers (Distinguishes files) (fill >>= fun inside =>
            Render.slots below c scope key site rest >>= fun outer =>
              pure (.fragment slot.key inside :: outer)) Unshadowed :=
        filled.bind fun inside safe => ih.bind fun outer safeOuter =>
          delivers_pure (Node.unshadowed_group slot.key safe safeOuter)
      unfold Render.slots
      dsimp only
      split
      · exact grouped (inner.childList distinct unshadowed _ _ true)
      · exact grouped (delivers_pure Node.unshadowed_nil)

theorem children (inner : Unshadows setting.files below) (distinct : c.Distinct)
    (unshadowed : site.Unshadowed) (scope : Scope) (key : String) :
    Delivers (Distinguishes setting.files) (children setting below c scope key site)
      Unshadowed := by
  simp only [Render.children]
  split
  · exact inner.childList distinct unshadowed scope key false
  · exact delivers_logged_bind fun items => inner.slots distinct unshadowed scope key items

/-- The definition is rendered with the children of the instance in place of the slot, and the
handlers of the instance are attached last. -/
theorem composite (inner : Unshadows setting.files below) (distinct : c.Distinct)
    (unshadowed : site.Unshadowed) {definition : Component} (distinctInside : definition.Distinct)
    (name : String) (props : Record Json) (handlers : List BoundHandler) (scope : Scope)
    (key : String) :
    Delivers (Distinguishes setting.files)
      (composite setting below c name definition props handlers scope key site) Unshadowed := by
  unfold Render.composite
  split
  · exact delivers_logged_bind fun _ => delivers_pure Node.unshadowed_nil
  · have deeper : site.deeper.Unshadowed := unshadowed
    refine (inner.children distinct deeper scope key).bind fun slot safe => ?_
    have placed : Site.Unshadowed
        { depth := site.depth + 1, active := site.active ++ [name], slot := some slot } := safe
    exact (inner definition _ key _ distinctInside placed).bind fun nodes safe =>
      delivers_pure (safe.attachToFirst handlers)

theorem typed (inner : Unshadows setting.files below) (distinct : c.Distinct)
    (unshadowed : site.Unshadowed) {props : Record Json} (named : props.names.Nodup)
    (handlers : List BoundHandler) (scope : Scope) (key : String) :
    Delivers (Distinguishes setting.files)
      (typed setting below c props handlers scope key site) Unshadowed := by
  refine (delivers_defined setting.files Component.Distinct c.kind).bind fun found has => ?_
  cases found with
  | none => exact delivers_logged_bind fun _ => delivers_pure Node.unshadowed_nil
  | some renderable =>
      refine (delivers_warnDeprecated c.kind).bind fun _ _ => ?_
      cases renderable with
      | composite name definition =>
          exact inner.composite distinct unshadowed (has _ rfl) name props handlers scope key
      | element tag tier | icon name =>
          have deeper : site.deeper.Unshadowed := unshadowed
          exact (inner.children distinct deeper scope key).bind fun nodes safe =>
            delivers_pure (Node.unshadowed_element (.of_clear named rfl) safe)

theorem itself (inner : Unshadows setting.files below) (distinct : c.Distinct)
    (unshadowed : site.Unshadowed) (scope : Scope) (key : String) :
    Delivers (Distinguishes setting.files) (itself setting below c scope key site) Unshadowed := by
  have resolved : Delivers (Distinguishes setting.files)
      (Rendering.logged (c.resolveProps setting.devMode scope)) fun props => props.names.Nodup :=
    delivers_logged (Component.always_resolveProps setting.devMode scope distinct.own)
  refine resolved.bind fun props named => ?_
  split
  · have deeper : site.deeper.Unshadowed := unshadowed
    exact (inner.children distinct deeper scope key).bind fun nodes safe =>
      delivers_pure (Node.unshadowed_group key safe Node.unshadowed_nil)
  · exact inner.typed distinct unshadowed named _ scope key

theorem admitted (inner : Unshadows setting.files below) :
    Unshadows setting.files (admitted setting below) := by
  intro c scope key site distinct unshadowed
  refine (delivers_outcome c scope).bind fun outcome declared => ?_
  cases outcome with
  | empty reason => exact delivers_pure Node.unshadowed_nil
  | branch content =>
      apply delivers_branch Node.unshadowed_nil (fun _ _ => Unshadowed.append)
        (.inr Node.unshadowed_text)
      intro d member key
      exact inner d scope key site.deeper (distinct.part (declared.mem_parts member)) unshadowed
  | unconditional =>
      dsimp only
      split
      · exact delivers_pure unshadowed
      · exact inner.itself distinct unshadowed scope key

theorem component (inner : Unshadows setting.files below) :
    Unshadows setting.files (component setting below) :=
  fun c scope key site distinct unshadowed =>
    delivers_component Node.unshadowed_nil Node.unshadowed_fallback
      (inner.admitted c scope key site distinct unshadowed)

end Unshadows

theorem unshadows_upTo (setting : Setting) (levels : Nat) :
    Unshadows setting.files (upTo setting levels) := by
  induction levels with
  | zero =>
      apply Unshadows.component
      exact fun c scope key site _ _ => delivers_pure Node.unshadowed_nil
  | succ levels ih => exact ih.component

end Render

namespace Interpreter

variable {files : Files} {i : Interpreter} {request : Request}

/-- No element that comes out of a pass, however deep inside and through however many definitions
and slots, has a property of the name that one of its handlers is attached to.  What is decoded
declares no property twice (`Component.distinct_of_decoder`), and the document and the definitions
must not do so either where they are given as they are. -/
theorem unshadowed_render (distinct : request.root.Distinct)
    (defines : i.registry.Defines files Component.Distinct) (now : Nat) :
    ∀ e, Node.Contains (i.render files now request).1.nodes e →
      ∀ h ∈ e.handlers, h.hostName ∉ e.props.names := by
  intro e contains
  cases run : (i.rendering files request).run.run (i.beginPass now) with
  | mk result p =>
      have unshadowed : Node.Unshadowed (i.render files now request).1.nodes := by
        rw [render_of_run run]
        cases result with
        | error h => exact Node.unshadowed_nil
        | ok nodes =>
            rw [Output.nodes_ofResult_ok]
            have safe : Site.Unshadowed {} := Node.unshadowed_nil
            exact (Render.unshadows_upTo ⟨files, i.config.devMode⟩ (i.guard.maxDepth + 1)
              request.root request.scope request.key {} distinct safe _ nodes p defines run).2
      exact (unshadowed e contains).free

/-- A definition that instantiates another one, which places its slot twice.  Both instances hand
their handlers to one element, and so does the element in the slot to itself. -/
theorem unshadowed_render_nested :
    let panel := "\x7b\"type\":\"div\"," ++
      "\"props\":\x7b\"onHover\":1,\"role\":\"group\",\"onClick\":2\x7d," ++
      "\"children\":[\x7b\"type\":\"Slot\"\x7d,\x7b\"type\":\"Slot\"\x7d]\x7d"
    let slot : Component := { kind := "Slot" }
    let card : Component := {
      kind := "Panel", children := some (.nodes [slot])
      events := some (.byName [("hover", .one (.actionId "look"))]) }
    let button : Component := {
      kind := "button", props := [("title", .null), ("onClick", .null)]
      events := some (.byName [("click", .one (.actionId "go"))]) }
    let root : Component := {
      kind := "Card", children := some (.nodes [button])
      events := some (.byName [("click", .one (.actionId "open"))]) }
    let registry := (Registry.builtin.registerDefinition "Card" (.parsed card)).registerDefinition
      "Panel" (.text panel)
    let i : Interpreter := .ofConfig {} registry 0
    let nodes := (i.render {} 0 { root, data := .null }).1.nodes
    let names (nodes : List Node) := nodes.filterMap fun node => node.element?.map fun e =>
      (e.handlers.map BoundHandler.hostName, e.props.names)
    names nodes = [(["onHover", "onClick"], ["role"])] ∧
      nodes.flatMap (fun node => names node.inner) =
        [(["onClick"], ["title"]), (["onClick"], ["title"])] ∧
      ∀ e, Node.Contains nodes e → ∀ h ∈ e.handlers, h.hostName ∉ e.props.names := by
  intro panel slot card button root registry i nodes names
  have distinctSlot : slot.Distinct :=
    Component.distinct_of_parts List.nodup_nil (List.forall_mem_nil _)
  have distinctCard : card.Distinct :=
    Component.distinct_of_parts List.nodup_nil (List.forall_mem_singleton.2 distinctSlot)
  have distinctButton : button.Distinct :=
    Component.distinct_of_parts (by decide) (List.forall_mem_nil _)
  have distinct : root.Distinct :=
    Component.distinct_of_parts List.nodup_nil (List.forall_mem_singleton.2 distinctButton)
  have defines : registry.Defines {} Component.Distinct := by
    apply Registry.Defines.registerDefinition
    · apply (Registry.defines_builtin _ _).registerDefinition
      rintro _ ⟨⟩
      exact distinctCard
    · exact fun definition => DefinitionSource.distinct_of_parse? rfl
  exact ⟨by decide +kernel, by decide +kernel, unshadowed_render distinct defines 0⟩

end Interpreter

end UiDoc
