import UiDoc.Document.Binding
import UiDoc.Document.Event

/-!
# Components

A document is a tree of components.  Every field of a component may be missing.
-/

namespace UiDoc

/-- The repetition of children for the items of an array. -/
structure Loop where
  source : Binding := .path ""
  itemVar : String := "item"
  indexVar : Option String := none
  /-- The path of the key of an item. -/
  key : Option String := none
  /-- Which items are shown. -/
  condition : Option String := none
  deriving DecidableEq, Repr

mutual

/-- A component. -/
structure Component where
  id : String := ""
  kind : String := ""
  props : Record Json := []
  className : Option String := none
  style : Option (Record Json) := none
  bindings : Record Binding := []
  dataBinding : Option Binding := none
  events : Option EventsField := none
  conditional : Option Conditional := none
  loop : Option Loop := none
  children : Option Content := none

/-- What a component shows instead of itself, depending on a condition. -/
structure Conditional where
  condition : String := ""
  yes : Branch
  no : Branch

/-- One side of a conditional. -/
inductive Branch where
  | absent
  /-- Declared to show nothing. -/
  | nothing
  | content (content : Content)

/-- What stands inside of a component or a branch. -/
inductive Content where
  | text (text : String)
  | nodes (nodes : List Component)
  | node (node : Component)

end

namespace Content

/-- The components, in order; a text has none. -/
def components : Content → List Component
  | text _ => []
  | nodes list => list
  | node one => [one]

end Content

namespace Component

/-- The components inside of a component. -/
def childNodes (c : Component) : List Component :=
  (c.children.map Content.components).getD []

/-- The name of a component in diagnostics. -/
def label (c : Component) : String :=
  if c.id ≠ "" then c.id else if c.kind ≠ "" then c.kind else "<anonymous>"

/-- Whether a component stands for the children of the instance of a definition. -/
def isSlot (c : Component) : Bool :=
  c.kind.toList.map Decimal.asciiLower = ['s', 'l', 'o', 't']

end Component

end UiDoc
