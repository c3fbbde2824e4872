import UiDoc.Document.Component
import UiDoc.Expr.Evaluation
import UiDoc.Template

/-!
# What a document contains

The components of a document, and what is declared in each of them: the expressions in its texts,
and its bindings.
-/

namespace UiDoc

/-! ## Texts -/

/-- Every placeholder of a template is an expression. -/
def Template.Supported (template : String) : Prop :=
  ∀ expression ∈ expressions template, Expr.isSupported expression = true

/-- The texts among declared values. -/
def Record.texts (declared : Record Json) : List String :=
  declared.filterMap fun field => field.2.str?

/-- The text of content, if it is no component. -/
def Content.texts : Content → List String
  | .text template => [template]
  | _ => []

namespace Branch

/-- The components of a branch. -/
def components : Branch → List Component
  | .content shown => shown.components
  | _ => []

/-- The text of a branch, if it is no component. -/
def texts : Branch → List String
  | .content shown => shown.texts
  | _ => []

end Branch

namespace Conditional

/-- The components of both branches. -/
def components (c : Conditional) : List Component :=
  c.yes.components ++ c.no.components

/-- The texts of both branches. -/
def texts (c : Conditional) : List String :=
  c.yes.texts ++ c.no.texts

end Conditional

/-! ## Components -/

namespace Component

/-- The components right inside of a component: those of its branches and its children. -/
def parts (c : Component) : List Component :=
  (c.conditional.map Conditional.components).getD [] ++ c.childNodes

/-- A component contains itself, and what its parts contain. -/
inductive Contains : Component → Component → Prop where
  | self (c : Component) : Contains c c
  | inside {c part d : Component} : part ∈ c.parts → Contains part d → Contains c d

/-- The templates of a component. -/
def templates (c : Component) : List String :=
  c.props.texts ++ c.className.toList ++ (c.style.map Record.texts).getD [] ++
    (c.conditional.map Conditional.texts).getD [] ++ (c.children.map Content.texts).getD []

/-- The conditions of a component. -/
def conditions (c : Component) : List String :=
  (c.conditional.map Conditional.condition).toList ++ (c.loop.bind Loop.condition).toList

/-- The expressions of a component. -/
def expressions (c : Component) : List String :=
  c.conditions ++ c.templates.flatMap Template.expressions

/-- All bindings of a component. -/
def allBindings (c : Component) : List Binding :=
  c.bindings.map Prod.snd ++ c.dataBinding.toList ++ (c.loop.map Loop.source).toList

end Component

/-- The transform of a binding. -/
def Binding.transform? : Binding → Option String
  | .path _ => none
  | .structured parts => parts.transform

end UiDoc
