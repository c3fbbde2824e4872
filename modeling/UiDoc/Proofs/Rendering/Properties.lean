import UiDoc.Interpreter
import UiDoc.Proofs.Binding
import UiDoc.Proofs.Record
import UiDoc.Proofs.Registry.Composites
import UiDoc.Proofs.Rendering.Runs

/-!
# Properties of rendered elements

The declared properties, the bindings, the data binding, the class name and the style of a component
are written into one record, one after the other, and the handlers remove from it.  They may all
mean the same names.  Nevertheless a property of the element can be told from its name alone: the
last one who writes it decides, and only the class name and the style look at what was there.
-/

namespace UiDoc

/-! ## Results of templates and bindings -/

namespace Template

/-- Declared fields are filled in independently of each other. -/
theorem result_recordOf (scope : Scope) (declared : Record Json) :
    (recordOf scope declared).result =
      declared.map fun field => (field.1, (valueOf scope field.2).result) := by
  induction declared with
  | nil => rfl
  | cons field rest ih =>
      have steadyRest := steady_recordOf scope rest
      rw [recordOf, (steady_valueOf scope field.2).result_bind ?others, steadyRest.result_bind_pure,
        ih]
      case others => exact steadyRest.bind fun _ => Logged.steady_pure _
      rfl

end Template

theorem Binding.result_resolve (devMode : Bool) (scope : Scope) (b : Binding) :
    (b.resolve devMode scope).result = (b.value scope).result :=
  run_resolve_fst devMode scope b .empty

/-! ## Properties by name -/

namespace Component

variable (scope : Scope) (c : Component)

/-- The declared value of a property. -/
def declaredProp (name : String) : Value :=
  (c.props.find? name).map fun declared => (Template.valueOf scope declared).result

/-- The value of a property without regard to what is particular about its name.  A binding hides
the declared value even where it is undefined. -/
def boundProp (name : String) : Value :=
  match c.bindings.find? name with
  | some b => (b.value scope).result
  | none => c.declaredProp scope name

/-- The value of the data binding. -/
def dataValue : Value :=
  c.dataBinding.bind fun b => (b.value scope).result

/-- The value of a property before the class name and the style are merged. -/
def priorProp (name : String) : Value :=
  match c.dataValue scope with
  | some value => if name = dataTarget value then some value else c.boundProp scope name
  | none => c.boundProp scope name

/-- The class name of a component; empty if it has none. -/
def ownClass : String :=
  match c.className with
  | some template => trimmed (Template.interpolate scope template).result
  | none => ""

/-- The style of a component, filled in. -/
def ownStyle : Option (Record Json) :=
  c.style.map fun style => style.map fun field => (field.1, (Template.valueOf scope field.2).result)

/-- A class name goes behind those that are there, if those are a text that is not blank. -/
def mergeClass (own : String) (prior : Value) : Value :=
  if own = "" then prior
  else
    let present := trimmed ((prior.bind Json.str?).getD "")
    some (.str (if present = "" then own else present ++ " " ++ own))

/-- A style overlays the fields that are there, if those are an object. -/
def mergeStyle (own : Option (Record Json)) (prior : Value) : Value :=
  match own with
  | some fields => some (.obj (Record.extend ((prior.bind Json.obj?).getD []) fields))
  | none => prior

/-- The value of a property of a component, if no handler takes its place. -/
def property (name : String) : Value :=
  if name = "className" then mergeClass (c.ownClass scope) (c.priorProp scope name)
  else if name = "style" then mergeStyle (c.ownStyle scope) (c.priorProp scope name)
  else c.priorProp scope name

/-! ## One writer after the other -/

variable {scope} {c} {props : Record Json} {values : String → Value}

theorem result_applyDataBinding (devMode : Bool) (scope : Scope) (c : Component)
    (props : Record Json) :
    (c.applyDataBinding devMode scope props).result =
      match c.dataValue scope with
      | some value => props.insert (dataTarget value) value
      | none => props := by
  rw [applyDataBinding, dataValue]
  cases c.dataBinding with
  | none => rfl
  | some b =>
      rw [(b.steady_resolve devMode scope).result_bind ?steady, b.result_resolve, Option.bind_some]
      case steady => split <;> exact Logged.steady_pure _
      cases (b.value scope).result <;> rfl

theorem result_applyClassName (scope : Scope) (c : Component) (props : Record Json) :
    (c.applyClassName scope props).result = addClassName (c.ownClass scope) props := by
  rw [applyClassName, ownClass]
  cases c.className with
  | none => rfl
  | some template => exact (Template.steady_interpolate scope template).result_bind_pure _

theorem result_applyStyle (scope : Scope) (c : Component) (props : Record Json) :
    (c.applyStyle scope props).result =
      match c.ownStyle scope with
      | some own =>
          let present : Record Json := ((props.find? "style").bind Json.obj?).getD []
          props.insert "style" (.obj (present.extend own))
      | none => props := by
  rw [applyStyle, ownStyle]
  cases c.style with
  | none => rfl
  | some style =>
      dsimp only [Option.map_some]
      rw [(Template.steady_recordOf scope style).result_bind_pure, Template.result_recordOf]

/-- Each writer goes on from the result of the one before it. -/
theorem result_resolveProps (devMode : Bool) (scope : Scope) (c : Component) :
    let declared := (Template.recordOf scope c.props).result
    let bound := (applyBindings devMode scope c.bindings declared).result
    let withData := (c.applyDataBinding devMode scope bound).result
    let withClass := (c.applyClassName scope withData).result
    (c.resolveProps devMode scope).result = (c.applyStyle scope withClass).result := by
  intro declared bound withData withClass
  have styled (props : Record Json) := c.steady_applyStyle scope props
  have classed (props : Record Json) := (c.steady_applyClassName scope props).bind styled
  have filled (props : Record Json) :=
    (c.steady_applyDataBinding devMode scope props).bind classed
  have written (props : Record Json) :=
    (steady_applyBindings devMode scope c.bindings props).bind filled
  rw [resolveProps, (Template.steady_recordOf scope c.props).result_bind (written _),
    (steady_applyBindings devMode scope c.bindings _).result_bind (filled _),
    (c.steady_applyDataBinding devMode scope _).result_bind (classed _),
    (c.steady_applyClassName scope _).result_bind (styled _)]

theorem stores_recordOf (scope : Scope) (distinct : c.props.names.Nodup) :
    (Template.recordOf scope c.props).result.Stores (c.declaredProp scope) := by
  rw [Template.result_recordOf]
  constructor
  · simpa [Record.names, Function.comp_def] using distinct
  · exact Record.find?_map (fun declared => (Template.valueOf scope declared).result) c.props

/-- A binding sets a property or removes it. -/
theorem stores_bound (stores : props.Stores values) (name : String) (value : Value) :
    Record.Stores (match value with
      | some value => props.insert name value
      | none => props.erase name) fun other => if other = name then value else values other := by
  cases value with
  | some value => exact stores.insert name value
  | none => exact stores.erase name

theorem stores_applyBindings (devMode : Bool) (scope : Scope) {bindings : Record Binding}
    (distinct : bindings.names.Nodup) (stores : props.Stores values) :
    (applyBindings devMode scope bindings props).result.Stores fun name =>
      match bindings.find? name with
      | some b => (b.value scope).result
      | none => values name := by
  induction bindings generalizing props values with
  | nil => exact stores
  | cons field rest ih =>
      obtain ⟨key, b⟩ := field
      obtain ⟨fresh, distinct⟩ := List.nodup_cons.1 distinct
      rw [applyBindings, (b.steady_resolve devMode scope).result_bind
        (steady_applyBindings devMode scope rest _), b.result_resolve]
      refine (ih distinct (stores_bound stores key (b.value scope).result)).congr fun name => ?_
      by_cases same : name = key
      · -- The bindings that follow have other names.
        subst same
        simp [Record.find?_eq_none.2 fresh]
      · simp [same]

theorem stores_applyDataBinding (devMode : Bool) (scope : Scope) (c : Component)
    (stores : props.Stores values) :
    (c.applyDataBinding devMode scope props).result.Stores fun name =>
      match c.dataValue scope with
      | some value => if name = dataTarget value then some value else values name
      | none => values name := by
  rw [result_applyDataBinding]
  cases c.dataValue scope with
  | some value => exact stores.insert (dataTarget value) value
  | none => exact stores

theorem stores_addClassName (own : String) (stores : props.Stores values) :
    (addClassName own props).Stores fun name =>
      if name = "className" then mergeClass own (values name) else values name := by
  rw [addClassName]
  split
  next nothing =>
    subst nothing
    exact stores.congr fun name => by simp [mergeClass]
  next something =>
    refine (stores.insert "className" _).congr fun name => ?_
    by_cases same : name = "className"
    · subst same
      simp [mergeClass, something, classNames, stores.find?]
    · simp [same]

theorem stores_applyClassName (scope : Scope) (c : Component) (stores : props.Stores values) :
    (c.applyClassName scope props).result.Stores fun name =>
      if name = "className" then mergeClass (c.ownClass scope) (values name) else values name := by
  rw [result_applyClassName]
  exact stores_addClassName _ stores

theorem stores_applyStyle (scope : Scope) (c : Component) (stores : props.Stores values) :
    (c.applyStyle scope props).result.Stores fun name =>
      if name = "style" then mergeStyle (c.ownStyle scope) (values name) else values name := by
  rw [result_applyStyle]
  cases c.ownStyle scope with
  | none => exact stores.congr fun name => by simp [mergeStyle]
  | some own =>
      refine (stores.insert "style" _).congr fun name => ?_
      by_cases same : name = "style"
      · subst same
        simp [mergeStyle, stores.find?]
      · simp [same]

/-- What the properties of a component are resolved to can be told by their names. -/
theorem stores_resolveProps (devMode : Bool) (scope : Scope) (props : c.props.names.Nodup)
    (bindings : c.bindings.names.Nodup) :
    (c.resolveProps devMode scope).result.Stores (c.property scope) := by
  rw [result_resolveProps]
  have declared := stores_recordOf scope props
  have bound := stores_applyBindings devMode scope bindings declared
  have withData := stores_applyDataBinding devMode scope c bound
  have withClass := stores_applyClassName scope c withData
  refine (stores_applyStyle scope c withClass).congr fun name => ?_
  by_cases style : name = "style"
  · subst style
    rfl
  · by_cases className : name = "className"
    · subst className
      rfl
    · simp only [property, style, className, if_false]
      rfl

end Component

/-! ## Elements -/

namespace Node

/-- The element that a node is. -/
def element? : Node → Option Element
  | .element e => some e
  | .text _ => none
  | .fragment _ _ => none
  | .fallback _ _ => none

theorem element_mem_of_mem_filterMap {nodes : List Node} {e : Element}
    (member : e ∈ nodes.filterMap element?) : .element e ∈ nodes := by
  obtain ⟨node, listed, same⟩ := List.mem_filterMap.1 member
  cases node with
  | element => exact Option.some.inj same ▸ listed
  | text | fragment | fallback => cases same

end Node

namespace BoundHandler

theorem stores_clear {props : Record Json} {values : String → Value} (handlers : List BoundHandler)
    (stores : props.Stores values) :
    (clear handlers props).Stores fun name =>
      if name ∈ handlers.map hostName then none else values name := by
  induction handlers generalizing props values with
  | nil => exact stores.congr fun name => by simp
  | cons h rest ih =>
      refine (ih (stores.erase h.hostName)).congr fun name => ?_
      by_cases later : name ∈ rest.map hostName <;> by_cases same : name = h.hostName <;>
        simp [later, same]

end BoundHandler

namespace Render

open Rendering (run_bind_eq_ok run_logged run_resolve)

variable {setting : Setting} {below : Renderer} {c : Component} {scope : Scope} {key : String}
  {site : Site} {p q : Pass} {nodes : List Node} {e : Element}

/-- What is found among the results of an act is the result of a run of it. -/
theorem exists_element {x : Rendering (List Node)}
    (found : (((x.run.run p).1.toOption.getD []).filterMap Node.element?).isEmpty = false) :
    ∃ nodes e q, x.run.run p = (.ok nodes, q) ∧ .element e ∈ nodes := by
  cases run : x.run.run p with
  | mk result q =>
      rw [run] at found
      cases result with
      | error h => cases found
      | ok nodes =>
          obtain ⟨e, listed⟩ := List.exists_mem_of_ne_nil _ (List.isEmpty_eq_false_iff.1 found)
          exact ⟨nodes, e, q, rfl, Node.element_mem_of_mem_filterMap listed⟩

/-- The gate lets a component pass, which is only counted, or puts something in its place that is no
element. -/
theorem run_gate_eq_ok {depth : Nat} {cut : Option (List Node)}
    (run : (gate c depth).run.run p = (.ok cut, q)) :
    match cut with
    | none => q.registry = p.registry ∧ q.journal = p.journal
    | some nodes => ∀ e, .element e ∉ nodes := by
  cases gated_of_run run with
  | proceeds => exact ⟨rfl, rfl⟩
  | cut shown => cases shown <;> simp

/-- An element that a type stands for has the properties that it is given, without those that its
handlers are attached to. -/
theorem props_of_run_typed {props : Record Json} {handlers : List BoundHandler}
    (atomic : p.registry.Atomic setting.files c.kind)
    (run : (typed setting below c props handlers scope key site).run.run p = (.ok nodes, q))
    (member : .element e ∈ nodes) : e.props = BoundHandler.clear handlers props := by
  rw [typed, run_bind_eq_ok] at run
  obtain ⟨found, asked, resolved, run⟩ := run
  rw [run_resolve] at resolved
  have stands : ((Registry.resolve setting.files c.kind).run p.registry).1 = found :=
    Except.ok.inj (congrArg Prod.fst resolved)
  cases found with
  | none =>
      dsimp only at run
      rw [run_bind_eq_ok] at run
      obtain ⟨_, _, -, run⟩ := run
      cases run
      cases member
  | some renderable =>
      dsimp only at run
      rw [run_bind_eq_ok] at run
      obtain ⟨_, warned, -, run⟩ := run
      cases renderable with
      | composite name definition => exact absurd stands (atomic name definition)
      | element | icon =>
          dsimp only at run
          rw [run_bind_eq_ok] at run
          obtain ⟨inner, last, -, run⟩ := run
          cases run
          cases List.mem_singleton.1 member
          rfl

theorem props_of_run_itself (atomic : p.registry.Atomic setting.files c.kind)
    (run : (itself setting below c scope key site).run.run p = (.ok nodes, q))
    (member : .element e ∈ nodes) :
    e.props = BoundHandler.clear (c.boundHandlers scope)
      ((c.resolveProps setting.devMode scope).run p.journal).1 := by
  rw [itself, run_bind_eq_ok] at run
  obtain ⟨props, resolved, first, run⟩ := run
  rw [run_logged] at first
  cases first
  split at run
  · rw [run_bind_eq_ok] at run
    obtain ⟨_, _, -, run⟩ := run
    cases run
    cases List.mem_singleton.1 member
  · refine props_of_run_typed ?_ run member
    exact atomic

theorem props_of_run_component (plain : c.conditional = none) (other : ¬ c.isSlot = true)
    (atomic : p.registry.Atomic setting.files c.kind)
    (run : (component setting below c scope key site).run.run p = (.ok nodes, q))
    (member : .element e ∈ nodes) :
    e.props = BoundHandler.clear (c.boundHandlers scope)
      ((c.resolveProps setting.devMode scope).run p.journal).1 := by
  rw [component_eq, run_bind_eq_ok] at run
  obtain ⟨cut, entered, gated, run⟩ := run
  cases cut with
  | some nodes =>
      cases run
      exact absurd member (run_gate_eq_ok gated e)
  | none =>
      obtain ⟨registry, journal⟩ := run_gate_eq_ok gated
      dsimp only at run
      rw [run_admitted setting below plain other] at run
      rw [← registry] at atomic
      rw [← journal]
      exact props_of_run_itself atomic run member

/-- A component that is rendered as an element gives it its properties, each of which can be told by
its name, apart from those that its handlers are attached to.  An instance of a definition around it
may still hand it further handlers. -/
theorem find?_props_upTo {levels : Nat} (scripts : p.journal.scripts.Faithful)
    (props : c.props.names.Nodup) (bindings : c.bindings.names.Nodup)
    (plain : c.conditional = none) (other : ¬ c.isSlot = true)
    (atomic : p.registry.Atomic setting.files c.kind)
    (run : (upTo setting levels c scope key site).run.run p = (.ok nodes, q))
    (member : .element e ∈ nodes) (name : String) :
    e.props.find? name =
      if name ∈ (c.boundHandlers scope).map BoundHandler.hostName then none
      else c.property scope name := by
  have cleared : e.props = BoundHandler.clear (c.boundHandlers scope)
      ((c.resolveProps setting.devMode scope).run p.journal).1 := by
    cases levels <;> exact props_of_run_component plain other atomic run member
  rw [(c.steady_resolveProps setting.devMode scope).run_fst scripts] at cleared
  rw [cleared]
  exact (BoundHandler.stores_clear _
    (Component.stores_resolveProps setting.devMode scope props bindings)).find? name

/-- Bindings for the class name, the style, the target of the data binding and the name that a
handler is attached to; and one that is undefined. -/
theorem find?_props_upTo_overlap :
    let c : Component := {
      kind := "div"
      props := [("title", .str "none"), ("className", .str "base"), ("onClick", .str "go")]
      className := some " card "
      style := some [("color", .str "red")]
      bindings := [("className", .path "user.shape"), ("style", .path "user.style"),
        ("data", .path "user.shape"), ("onClick", .path "user.shape"), ("title", .path "nobody")]
      dataBinding := some (.path "user.tags")
      events := some (.byName [("click", .one (.actionId "go"))]) }
    let user : Json := .obj [("shape", .str " wide "), ("tags", .arr [.null]),
      ("style", .obj [("margin", .int 0), ("color", .str "blue")])]
    let scope : Scope := { data := .obj [("user", user)] }
    let setting : Setting := ⟨{}, false⟩
    let p := (Interpreter.ofConfig {} .builtin 0).beginPass 0
    ∃ nodes e q, (upTo setting 0 c scope "root" {}).run.run p = (.ok nodes, q) ∧
      .element e ∈ nodes ∧
      ["title", "className", "style", "data", "onClick"].map
          (fun name => (e.props.find? name).map Json.print) =
        [none, some "\"wide card\"", some "\x7b\"margin\":0,\"color\":\"red\"\x7d", some "[null]",
          none] := by
  intro c user scope setting p
  have rendered : ((((upTo setting 0 c scope "root" {}).run.run p).1.toOption.getD []).filterMap
      Node.element?).isEmpty = false := by decide +kernel
  generalize run : (upTo setting 0 c scope "root" {}).run.run p = outcome at rendered ⊢
  obtain ⟨result, q⟩ := outcome
  cases result with
  | error h => cases rendered
  | ok nodes =>
      obtain ⟨e, listed⟩ := List.exists_mem_of_ne_nil _ (List.isEmpty_eq_false_iff.1 rendered)
      have member := Node.element_mem_of_mem_filterMap listed
      have scripts : p.journal.scripts.Faithful := Script.Cache.faithful_empty
      have props : c.props.names.Nodup := by decide
      have bindings : c.bindings.names.Nodup := by decide
      have other : ¬ c.isSlot = true := by decide
      have atomic : p.registry.Atomic setting.files c.kind :=
        Registry.atomic_of_tier (by decide +kernel)
      have found := find?_props_upTo scripts props bindings rfl other atomic run member
      refine ⟨nodes, e, q, rfl, member, ?_⟩
      rw [List.map_congr_left fun name _ => congrArg (Option.map Json.print) (found name)]
      decide +kernel

end Render

end UiDoc
