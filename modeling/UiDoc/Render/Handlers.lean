import UiDoc.Event.Normal
import UiDoc.Render.Node
import UiDoc.Scope

/-!
# Handlers of elements

An element never has a property of the name that one of its handlers is attached to.
-/

namespace UiDoc

/-- A handler of a component, bound to the variables of a scope. -/
def Component.bindHandler (c : Component) (scope : Scope) (h : EventHandler) : BoundHandler where
  nodeId := c.id
  handler := h
  hostName := EventName.host h.event
  context := scope.context

/-- The handlers of a component. -/
def Component.boundHandlers (c : Component) (scope : Scope) : List BoundHandler :=
  match c.events with
  | some events => events.normalize.map (c.bindHandler scope)
  | none => []

namespace BoundHandler

/-- Properties without those that handlers are attached to. -/
def clear (handlers : List BoundHandler) (props : Record Json) : Record Json :=
  handlers.foldl (fun props h => props.erase h.hostName) props

end BoundHandler

namespace Element

/-- The element with further handlers. -/
def attach (handlers : List BoundHandler) (e : Element) : Element :=
  { e with props := BoundHandler.clear handlers e.props, handlers := e.handlers ++ handlers }

end Element

namespace Node

/-- Hands handlers to the first of some nodes, if it is an element. -/
def attachToFirst (handlers : List BoundHandler) : List Node → List Node
  | .element e :: rest => .element (e.attach handlers) :: rest
  | nodes => nodes

end Node

end UiDoc
