import UiDoc.Proofs.Record.Order
import UiDoc.Proofs.Rendering.Properties

/-!
# The order of properties

The properties of an element stand in the order in which they are declared, as long as none of them
is moved past another one.  That is what a binding does that is undefined, or a handler in place of
a property: the last property takes the place of the one that is removed.
-/

namespace UiDoc

open Record (Change InOrder after stage)

/-! ## What the writers do to names -/

namespace Component

variable (scope : Scope) (c : Component)

/-- A binding sets a property or removes it. -/
def bindingChange (field : String × Binding) : Change :=
  if (field.2.value scope).result.isSome then .put field.1 else .drop field.1

/-- What happens to the names of the declared properties before handlers are attached. -/
def nameChanges : List Change :=
  c.bindings.map (bindingChange scope) ++
    (c.dataValue scope).toList.map (fun value => .put (dataTarget value)) ++
    (if c.ownClass scope = "" then [] else [.put "className"]) ++
    if c.style.isSome then [.put "style"] else []

variable {scope} {c} {props : Record Json}

theorem names_recordOf (scope : Scope) (declared : Record Json) :
    (Template.recordOf scope declared).result.names = declared.names := by
  rw [Template.result_recordOf]
  simp [Record.names, Function.comp_def]

theorem names_applyBindings (devMode : Bool) (scope : Scope) (bindings : Record Binding)
    (distinct : props.names.Nodup) :
    (applyBindings devMode scope bindings props).result.names =
      after (bindings.map (bindingChange scope)) props.names := by
  induction bindings generalizing props with
  | nil => rfl
  | cons field rest ih =>
      obtain ⟨name, b⟩ := field
      rw [applyBindings, (b.steady_resolve devMode scope).result_bind
        (steady_applyBindings devMode scope rest _), b.result_resolve, List.map_cons, bindingChange]
      cases (b.value scope).result with
      | some value =>
          rw [ih (Record.nodup_names_insert value distinct), Record.names_insert]
          rfl
      | none =>
          rw [ih (Record.nodup_names_erase distinct name), Record.names_erase distinct]
          rfl

theorem names_applyDataBinding (devMode : Bool) (scope : Scope) (c : Component)
    (props : Record Json) :
    (c.applyDataBinding devMode scope props).result.names =
      after ((c.dataValue scope).toList.map fun value => .put (dataTarget value)) props.names := by
  rw [result_applyDataBinding]
  cases c.dataValue scope with
  | none => rfl
  | some value => exact Record.names_insert props (dataTarget value) value

theorem names_addClassName (own : String) (props : Record Json) :
    (addClassName own props).names =
      after (if own = "" then [] else [.put "className"]) props.names := by
  rw [addClassName]
  split
  · rfl
  · exact Record.names_insert props "className" _

theorem names_applyClassName (scope : Scope) (c : Component) (props : Record Json) :
    (c.applyClassName scope props).result.names =
      after (if c.ownClass scope = "" then [] else [.put "className"]) props.names := by
  rw [result_applyClassName]
  exact names_addClassName _ props

theorem names_applyStyle (scope : Scope) (c : Component) (props : Record Json) :
    (c.applyStyle scope props).result.names =
      after (if c.style.isSome then [.put "style"] else []) props.names := by
  rw [result_applyStyle, ownStyle]
  cases c.style with
  | none => rfl
  | some style => exact Record.names_insert props "style" _

/-- The names of the properties are the declared ones, after what each writer does to them. -/
theorem names_resolveProps (devMode : Bool) (scope : Scope) (distinct : c.props.names.Nodup) :
    (c.resolveProps devMode scope).result.names = after (c.nameChanges scope) c.props.names := by
  have declared := names_recordOf scope c.props
  rw [result_resolveProps, names_applyStyle, names_applyClassName, names_applyDataBinding,
    names_applyBindings, declared]
  · simp only [nameChanges, Record.after_append]
  · rwa [declared]

end Component

namespace BoundHandler

/-- A handler removes the property that it is attached to. -/
def nameChange (h : BoundHandler) : Change :=
  .drop h.hostName

theorem names_clear (handlers : List BoundHandler) {props : Record Json}
    (distinct : props.names.Nodup) :
    (clear handlers props).names = after (handlers.map nameChange) props.names := by
  induction handlers generalizing props with
  | nil => rfl
  | cons h rest ih =>
      have erased : clear (h :: rest) props = clear rest (props.erase h.hostName) := rfl
      rw [erased, ih (Record.nodup_names_erase distinct h.hostName), Record.names_erase distinct]
      rfl

theorem clear_append (handlers further : List BoundHandler) (props : Record Json) :
    clear (handlers ++ further) props = clear further (clear handlers props) :=
  List.foldl_append ..

end BoundHandler

/-! ## Elements -/

namespace Render

variable {setting : Setting} {c : Component} {scope : Scope} {key : String} {site : Site}
  {p q : Pass} {nodes : List Node} {e : Element}

/-- The properties of an element stand in the order in which its component declares them, from the
first change to the last one, exactly if no binding that is undefined, no handler, and no property
that is set anew moves one of them past another.  There may be further handlers, from instances of
definitions around the component. -/
theorem inOrder_props_upTo {levels : Nat} (scripts : p.journal.scripts.Faithful)
    (distinct : c.props.names.Nodup) (plain : c.conditional = none) (other : ¬ c.isSlot = true)
    (atomic : p.registry.Atomic setting.files c.kind)
    (run : (upTo setting levels c scope key site).run.run p = (.ok nodes, q))
    (member : .element e ∈ nodes) (further : List BoundHandler) :
    let changes := c.nameChanges scope ++
      (c.boundHandlers scope ++ further).map BoundHandler.nameChange
    let names := stage changes c.props.names
    (e.attach further).props.names = names changes.length ∧
      ((∀ k, InOrder c.props.names (names k)) ↔
        ∀ (k : Nat) (_ : k < changes.length), ¬ changes[k].Displaces c.props.names (names k)) := by
  intro changes names
  constructor
  · have cleared : e.props = BoundHandler.clear (c.boundHandlers scope)
        ((c.resolveProps setting.devMode scope).run p.journal).1 := by
      cases levels <;> exact props_of_run_component plain other atomic run member
    rw [(c.steady_resolveProps setting.devMode scope).run_fst scripts] at cleared
    have resolved := Component.names_resolveProps setting.devMode scope distinct
    have attached : (e.attach further).props = BoundHandler.clear further e.props := rfl
    have kept : (c.resolveProps setting.devMode scope).result.names.Nodup := by
      rw [resolved]
      exact Record.nodup_after distinct _
    rw [attached, cleared, ← BoundHandler.clear_append, BoundHandler.names_clear _ kept, resolved,
      ← Record.after_append]
    exact (Record.stage_length changes c.props.names).symm
  · exact Record.inOrder_stages (Record.inOrder_self distinct) changes

/-- A binding that is undefined and a handler take away the last property and the last but one, and
a class name comes in between. -/
theorem inOrder_props_upTo_last :
    let c : Component := {
      kind := "div"
      props := [("title", .null), ("role", .null), ("onClick", .null), ("lang", .null)]
      className := some "card"
      bindings := [("lang", .path "missing")]
      events := some (.byName [("click", .one (.actionId "go"))]) }
    let scope : Scope := { data := .obj [] }
    let setting : Setting := ⟨{}, false⟩
    let p := (Interpreter.ofConfig {} .builtin 0).beginPass 0
    ∃ nodes e q, (upTo setting 0 c scope "root" {}).run.run p = (.ok nodes, q) ∧
      .element e ∈ nodes ∧ e.props.names = ["title", "role", "className"] ∧
      InOrder c.props.names e.props.names := by
  intro c scope setting p
  obtain ⟨nodes, e, q, run, member⟩ : ∃ nodes e q,
      (upTo setting 0 c scope "root" {}).run.run p = (.ok nodes, q) ∧ .element e ∈ nodes :=
    exists_element (by decide +kernel)
  have scripts : p.journal.scripts.Faithful := Script.Cache.faithful_empty
  have distinct : c.props.names.Nodup := by decide
  have other : ¬ c.isSlot = true := by decide
  have atomic : p.registry.Atomic setting.files c.kind :=
    Registry.atomic_of_tier (by decide +kernel)
  obtain ⟨names, calm⟩ := inOrder_props_upTo scripts distinct rfl other atomic run member []
  have ordered := calm.2 (by decide +kernel)
  have last : InOrder c.props.names (e.attach []).props.names := names ▸ ordered _
  exact ⟨nodes, e, q, run, member, names.trans (by decide +kernel), last⟩

end Render

namespace Interpreter

/-- A binding that is undefined, and a handler in place of a property, turn the order of other
properties around. -/
theorem not_inOrder_props :
    let bound : Component := {
      kind := "div", props := [("a", .int 1), ("b", .int 2), ("c", .int 3)]
      bindings := [("a", .path "missing")] }
    let handled : Component := {
      kind := "div", props := [("onClick", .int 1), ("b", .int 2), ("c", .int 3)]
      events := some (.byName [("click", .one (.actionId "go"))]) }
    let i := Interpreter.ofConfig {} .builtin 0
    let names (c : Component) :=
      (i.render {} 0 { root := c, data := .obj [] }).1.nodes.filterMap fun node =>
        node.element?.map fun e => e.props.names
    names bound = [["c", "b"]] ∧ ¬ InOrder bound.props.names ["c", "b"] ∧
      names handled = [["c", "b"]] ∧ ¬ InOrder handled.props.names ["c", "b"] := by
  decide +kernel

end Interpreter

end UiDoc
