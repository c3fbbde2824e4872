import UiDoc.Diagnostics
import UiDoc.Document.Event
import UiDoc.Registry

/-!
# Rendered nodes

A document is interpreted to a list of nodes.  A node is an element of the host, a text, a group of
nodes, or a mark where the document was nested too deeply.
-/

namespace UiDoc

/-- A handler together with the variables that were bound where it was declared. -/
structure BoundHandler where
  nodeId : String
  handler : EventHandler
  /-- The property that the host attaches the handler to. -/
  hostName : String
  context : Record Json

mutual

/-- An element of the host. -/
structure Element where
  /-- Tells the element apart from its siblings. -/
  key : String
  id : String
  kind : String
  renderable : Renderable
  props : Record Json
  handlers : List BoundHandler
  children : List Node

/-- A rendered node. -/
inductive Node where
  | element (element : Element)
  | text (text : String)
  | fragment (key : String) (children : List Node)
  /-- What is shown for a component that is nested too deeply. -/
  | fallback (nodeId : String) (depth : Nat)

end

/-- How a pass ended. -/
inductive Status where
  | rendered
  | empty
  | halted
  deriving DecidableEq, Repr

/-- The name of a status. -/
def Status.name : Status → String
  | rendered => "rendered"
  | empty => "empty"
  | halted => "halted"

mutual

/-- The handlers of an element, then those below it. -/
def Element.allHandlers : Element → List BoundHandler
  | ⟨_, _, _, _, _, own, children⟩ => own ++ Node.listHandlers children
termination_by structural e => e

/-- The handlers of a node and below it, in the order of the document. -/
def Node.allHandlers : Node → List BoundHandler
  | .element e => e.allHandlers
  | .fragment _ children => Node.listHandlers children
  | .text _ => []
  | .fallback _ _ => []
termination_by structural n => n

/-- The handlers of nodes and below them. -/
def Node.listHandlers : List Node → List BoundHandler
  | [] => []
  | n :: rest => n.allHandlers ++ Node.listHandlers rest
termination_by structural list => list

end

/-- The outcome of a pass. -/
structure Output where
  nodes : List Node
  status : Status
  diagnostics : Diagnostics

end UiDoc
