import UiDoc.Document.Component
import UiDoc.Document.Manifest

/-!
# Writing documents as JSON

Fields stand in a fixed order, and those that are missing or empty are left out.
-/

namespace UiDoc

namespace Json

/-- A field that is left out if there is no value. -/
def field? {α : Type} (name : String) (encode : α → Json) (x : Option α) :
    List (String × Json) :=
  match x with
  | some x => [(name, encode x)]
  | none => []

/-- A text field that is left out if it is empty. -/
def textField (name : String) (s : String) : List (String × Json) :=
  if s = "" then [] else [(name, .str s)]

/-- A field of named values that is left out if there are none. -/
def recordField {α : Type} (name : String) (encode : α → Json) (r : Record α) :
    List (String × Json) :=
  if r.isEmpty then [] else [(name, .obj (r.map fun (key, x) => (key, encode x)))]

/-- A field of a list that is left out if the list is empty. -/
def listField (name : String) (items : List Json) : List (String × Json) :=
  if items.isEmpty then [] else [(name, .arr items)]

end Json

open Json (field? textField recordField)

namespace StructuredBinding

/-- The JSON form of a binding in parts. -/
def toJson (b : StructuredBinding) : Json :=
  .obj (field? "source" .str b.source ++
    (field? "sourceType" (fun t : SourceType => .str t.name) b.sourceType ++
      (field? "path" .str b.path ++ field? "transform" .str b.transform)))

end StructuredBinding

/-- The JSON form of a binding. -/
def Binding.toJson : Binding → Json
  | .path text => .str text
  | .structured parts => parts.toJson

/-- The JSON form of an action; its further fields stand beside its own. -/
def Action.toJson (a : Action) : Json :=
  .obj (("type", .str a.kind) ::
    (field? "id" .str a.id ++ (field? "params" .obj a.params ++ a.extra)))

/-- The JSON form of actions. -/
def Action.listToJson (actions : List Action) : Json :=
  .arr (actions.map Action.toJson)

/-- The JSON form of several actions for an event. -/
def MultiAction.toJson (m : MultiAction) : Json :=
  .obj (("actions", Action.listToJson m.actions) ::
    (field? "payload" .obj m.payload ++ field? "condition" .str m.condition))

/-- The JSON form of one action for an event. -/
def SingleAction.toJson (s : SingleAction) : Json :=
  .obj (("action", .str s.action) ::
    (field? "payload" .obj s.payload ++ field? "condition" .str s.condition))

/-- The JSON form of what is declared for an event. -/
def EventDefinition.toJson : EventDefinition → Json
  | .actionId id => .str id
  | .multi definition => definition.toJson
  | .single definition => definition.toJson

/-- The JSON form of one definition or many. -/
def EventSpec.toJson : EventSpec → Json
  | .many definitions => .arr (definitions.map EventDefinition.toJson)
  | .one definition => definition.toJson

/-- The JSON form of a handler of the list form. -/
def ListedHandler.toJson (h : ListedHandler) : Json :=
  .obj (("event", .str h.event) ::
    ((if h.actions.isEmpty then [] else [("actions", Action.listToJson h.actions)]) ++
      (field? "action" .str h.action ++
        (field? "payload" .obj h.payload ++ field? "condition" .str h.condition))))

/-- The JSON form of the events of a component. -/
def EventsField.toJson : EventsField → Json
  | .handlers list => .arr (list.map ListedHandler.toJson)
  | .byName specs => .obj (specs.map fun (name, spec) => (name, spec.toJson))

/-- The JSON form of a handler. -/
def EventHandler.toJson (h : EventHandler) : Json :=
  .obj (("event", .str h.event) :: ("actions", Action.listToJson h.actions) ::
    field? "condition" .str h.condition)

/-- The JSON form of a loop. -/
def Loop.toJson (l : Loop) : Json :=
  .obj (("source", l.source.toJson) :: ("itemVar", .str l.itemVar) ::
    (field? "indexVar" .str l.indexVar ++
      (field? "key" .str l.key ++ field? "condition" .str l.condition)))

mutual

/-- The JSON form of a component. -/
def Component.toJson : Component → Json
  | { id, kind, props, className, style, bindings, dataBinding, events, conditional, loop,
      children } =>
      .obj (textField "id" id ++ (textField "type" kind ++ (recordField "props" (·) props ++
        (field? "className" .str className ++ (field? "style" .obj style ++
        (recordField "bindings" Binding.toJson bindings ++
        (field? "dataBinding" Binding.toJson dataBinding ++
        (field? "events" EventsField.toJson events ++
        (conditionalFields conditional ++ (field? "loop" Loop.toJson loop ++
        childrenFields children))))))))))
termination_by structural c => c

/-- The field of a conditional, if there is one. -/
def conditionalFields : Option Conditional → List (String × Json)
  | none => []
  | some conditional => [("conditional", conditional.toJson)]
termination_by structural c => c

/-- The JSON form of a conditional. -/
def Conditional.toJson : Conditional → Json
  | { condition, yes, no } =>
      .obj (("if", .str condition) :: (branchFields "then" yes ++ branchFields "else" no))
termination_by structural c => c

/-- The field of a branch, if the branch is declared. -/
def branchFields (name : String) : Branch → List (String × Json)
  | .absent => []
  | .nothing => [(name, .null)]
  | .content content => [(name, content.toJson)]
termination_by structural b => b

/-- The field of the children, if there are any. -/
def childrenFields : Option Content → List (String × Json)
  | none => []
  | some content => [("children", content.toJson)]
termination_by structural c => c

/-- The JSON form of content. -/
def Content.toJson : Content → Json
  | .text text => .str text
  | .nodes nodes => .arr (componentsToJson nodes)
  | .node node => node.toJson
termination_by structural c => c

/-- The JSON forms of components. -/
def componentsToJson : List Component → List Json
  | [] => []
  | node :: nodes => node.toJson :: componentsToJson nodes
termination_by structural c => c

end

/-- The JSON form of a deprecation. -/
def Deprecation.toJson : Deprecation → Json
  | flag set => .bool set
  | notice text => .str text

/-- The JSON form of the declaration of a component type. -/
def RegistryEntry.toJson (e : RegistryEntry) : Json :=
  .obj (("key", .str e.key) :: (textField "exportName" e.exportName ++
    (("sourceTier", .str e.sourceTier.name) :: (field? "loadPath" .str e.loadPath ++
    (("wrapperRequired", .bool e.wrapperRequired) ::
    (field? "wrapperComponent" .str e.wrapperComponent ++
    field? "deprecated" Deprecation.toJson e.deprecated))))))

/-- The JSON form of a manifest. -/
def Manifest.toJson (m : Manifest) : Json :=
  .obj [("components", .arr (m.components.map RegistryEntry.toJson)),
    ("icons", .arr (m.icons.map .str))]

end UiDoc
