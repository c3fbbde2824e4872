import UiDoc.Json

/-!
# Events

Documents declare what happens on an event in three forms: a list of handlers, or a map from names
of events to one definition or to many.
-/

namespace UiDoc

/-- Something that an event triggers. -/
structure Action where
  kind : String := "custom"
  id : Option String := none
  params : Option (Record Json) := none
  /-- Fields that mean something only to whoever executes the action. -/
  extra : Record Json := []

/-- An action that is known by its id. -/
def Action.custom (id : String) (params : Option (Record Json)) : Action where
  id := some id
  params := params

/-- Several actions for an event. -/
structure MultiAction where
  actions : List Action := []
  payload : Option (Record Json) := none
  condition : Option String := none

/-- One action for an event, by its id. -/
structure SingleAction where
  action : String := ""
  payload : Option (Record Json) := none
  condition : Option String := none

/-- What is declared for an event. -/
inductive EventDefinition where
  | actionId (id : String)
  | multi (definition : MultiAction)
  | single (definition : SingleAction)

/-- One definition or many. -/
inductive EventSpec where
  | many (definitions : List EventDefinition)
  | one (definition : EventDefinition)

/-- A handler of the list form. -/
structure ListedHandler where
  event : String := ""
  actions : List Action := []
  action : Option String := none
  payload : Option (Record Json) := none
  condition : Option String := none

/-- The events of a component. -/
inductive EventsField where
  | handlers (handlers : List ListedHandler)
  | byName (specs : Record EventSpec)

/-- A handler in the form that all others are brought to. -/
structure EventHandler where
  event : String := ""
  actions : List Action := []
  condition : Option String := none

end UiDoc
