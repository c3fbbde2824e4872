import UiDoc.Binding.Resolution
import UiDoc.Document.Component
import UiDoc.Event.Normal
import UiDoc.Template
import UiDoc.Validation.Issue

/-!
# Issues of texts

The texts of a component hold expressions, templates and transforms.  Whether these can be evaluated
does not depend on any data.
-/

namespace UiDoc

namespace Validation

/-- The issues of something that may be missing. -/
def ofOption {α : Type} (issues : α → List Issue) : Option α → List Issue
  | some x => issues x
  | none => []

/-- The issues of an expression. -/
def ofExpression (place : Place) (text : String) : List Issue :=
  if Expr.isSupported text then []
  else [⟨.unsupportedExpression, place,
    "'" ++ text ++ "' is outside the supported expression grammar"⟩]

/-- The issues of a template. -/
def ofTemplate (place : Place) (template : String) : List Issue :=
  (Template.expressions template).flatMap (ofExpression place)

/-- The issues of declared values; only texts are templates. -/
def ofRecord (place : Place) (declared : Record Json) : List Issue :=
  declared.flatMap fun (name, value) =>
    match value with
    | .str template => ofTemplate (place.field name) template
    | _ => []

/-- Whether a transform can be evaluated. -/
def supportsTransform (transform : String) : Bool :=
  (!Script.startsLikeFunction transform && Expr.isSupported transform) ||
    (Script.Program.compile? transform).isSome

/-- The issues of a transform. -/
def ofTransform (place : Place) (transform : String) : List Issue :=
  if supportsTransform transform then []
  else [⟨.unsupportedExpression, place,
    "transform '" ++ transform ++ "' cannot be evaluated; the value is used untransformed"⟩]

/-- The issues of a binding. -/
def ofBinding (place : Place) : Binding → List Issue
  | .path _ => []
  | .structured parts => ofOption (ofTransform (place.field "transform")) parts.activeTransform

/-- The issues of the properties of a component. -/
def ofProps (place : Place) (c : Component) : List Issue :=
  ofRecord (place.field "props") c.props ++
    ofOption (ofTemplate (place.field "className")) c.className ++
    ofOption (ofRecord (place.field "style")) c.style ++
    (c.bindings.flatMap fun (name, binding) =>
      ofBinding ((place.field "bindings").field name) binding) ++
    ofOption (ofBinding (place.field "dataBinding")) c.dataBinding

/-- The issues of a handler. -/
def ofHandler (place : Place) (h : EventHandler) : List Issue :=
  (if h.actions.isEmpty then
    [⟨.eventWithoutActions, place, "'" ++ h.event ++ "' handler has no actions"⟩]
  else []) ++
    ofOption (ofExpression (place.field "condition")) h.condition

/-- The issues of the events of a component. -/
def ofEvents (place : Place) (events : EventsField) : List Issue :=
  events.normalize.flatMap fun h => ofHandler ((place.field "events").field h.event) h

/-- The issues of the condition of a conditional. -/
def ofCondition (place : Place) (condition : String) : List Issue :=
  if Text.trim condition.toList = [] then
    [⟨.emptyCondition, place, "conditional has an empty `if`"⟩]
  else ofExpression (place.field "if") condition

/-- Whether there is something to repeat. -/
def repeats : Option Content → Bool
  | none => false
  | some (.nodes list) => !list.isEmpty
  | some _ => true

/-- The issues of a loop over some children. -/
def ofLoop (place : Place) (l : Loop) (children : Option Content) : List Issue :=
  (if Text.trim l.itemVar.toList = [] then
    [⟨.loopItemVar, place, "loop has an empty `itemVar`"⟩] else []) ++
    (if l.source.isEmpty then [⟨.loopWithoutSource, place, "loop has no source"⟩] else []) ++
    ofBinding (place.field "source") l.source ++
    ofOption (ofExpression (place.field "condition")) l.condition ++
    (if repeats children then []
    else [⟨.loopWithoutChildren, place, "loop has no children to repeat"⟩])

end Validation

end UiDoc
