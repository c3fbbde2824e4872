import UiDoc.Document.Event
import UiDoc.Event.Name

/-!
# Bringing events to one form

However the events of a component are declared, each definition becomes a handler with a canonical
event name, a list of actions and a condition.
-/

namespace UiDoc

namespace Action

/-- The action with parameters, unless it has its own. -/
def withParams (params : Option (Record Json)) (a : Action) : Action :=
  match a.params with
  | some _ => a
  | none => { a with params := params }

end Action

namespace EventDefinition

/-- The handler of a definition. -/
def handler (event : String) : EventDefinition → EventHandler
  | .actionId id => { event, actions := [.custom id none] }
  | .single d => { event, actions := [.custom d.action d.payload], condition := d.condition }
  | .multi d =>
      { event, actions := d.actions.map (.withParams d.payload), condition := d.condition }

end EventDefinition

/-- The definitions of one event. -/
def EventSpec.definitions : EventSpec → List EventDefinition
  | .many list => list
  | .one definition => [definition]

namespace ListedHandler

/-- The actions of a handler of the list form: those listed, else the single one. -/
def allActions (h : ListedHandler) : List Action :=
  if !h.actions.isEmpty then h.actions.map (.withParams h.payload)
  else
    match h.action with
    | some id => [.custom id h.payload]
    | none => []

/-- The handler of a handler of the list form. -/
def handler (h : ListedHandler) : EventHandler where
  event := EventName.canonical h.event
  actions := h.allActions
  condition := h.condition

end ListedHandler

namespace EventsField

/-- The handlers of the events of a component. -/
def normalize : EventsField → List EventHandler
  | .handlers list => list.map ListedHandler.handler
  | .byName specs =>
      specs.flatMap fun (name, spec) =>
        spec.definitions.map (EventDefinition.handler (EventName.canonical name))

end EventsField

end UiDoc
