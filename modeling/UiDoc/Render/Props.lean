import UiDoc.Binding.Resolution
import UiDoc.Document.Component
import UiDoc.Template.Interpolation

/-!
# Properties of elements

The declared properties come first.  Bindings overwrite or remove them, then comes the value of the
data binding, and last the class name and the style, which are merged with those already there.
-/

namespace UiDoc

namespace Component

/-- Sets the property of each binding, and removes those of undefined ones. -/
def applyBindings (devMode : Bool) (scope : Scope) :
    Record Binding → Record Json → Logged (Record Json)
  | [], props => pure props
  | (name, binding) :: rest, props => do
      let value ← binding.resolve devMode scope
      applyBindings devMode scope rest (match value with
        | some value => props.insert name value
        | none => props.erase name)

/-- The property that the value of a data binding goes to. -/
def dataTarget : Json → String
  | .arr _ | .obj _ => "data"
  | _ => "value"

/-- Sets the property of a data binding, if it is defined. -/
def applyDataBinding (devMode : Bool) (scope : Scope) (c : Component) (props : Record Json) :
    Logged (Record Json) :=
  match c.dataBinding with
  | none => pure props
  | some binding => do
      match ← binding.resolve devMode scope with
      | some value => pure (props.insert (dataTarget value) value)
      | none => pure props

/-- A text without whitespace at its ends. -/
def trimmed (text : String) : String :=
  String.ofList (Text.trim text.toList)

/-- The class names that are there already. -/
def classNames (props : Record Json) : String :=
  trimmed (((props.find? "className").bind Json.str?).getD "")

/-- Adds class names to those that are there. -/
def addClassName (name : String) (props : Record Json) : Record Json :=
  if name = "" then props
  else
    let present := classNames props
    props.insert "className" (.str (if present = "" then name else present ++ " " ++ name))

/-- Merges the class name of a component. -/
def applyClassName (scope : Scope) (c : Component) (props : Record Json) : Logged (Record Json) :=
  match c.className with
  | none => pure props
  | some template => do
      let filled ← Template.interpolate scope template
      pure (addClassName (trimmed filled) props)

/-- Merges the style of a component. -/
def applyStyle (scope : Scope) (c : Component) (props : Record Json) : Logged (Record Json) :=
  match c.style with
  | none => pure props
  | some style => do
      let filled ← Template.recordOf scope style
      let present : Record Json := ((props.find? "style").bind Json.obj?).getD []
      pure (props.insert "style" (.obj (present.extend filled)))

/-- The properties of a component. -/
def resolveProps (devMode : Bool) (scope : Scope) (c : Component) : Logged (Record Json) := do
  let declared ← Template.recordOf scope c.props
  let bound ← applyBindings devMode scope c.bindings declared
  let withData ← c.applyDataBinding devMode scope bound
  let withClass ← c.applyClassName scope withData
  c.applyStyle scope withClass

end Component

end UiDoc
