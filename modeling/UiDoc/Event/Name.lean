import UiDoc.Text.LetterCase
import UiDoc.Text.Class

/-!
# Names of events

An event has a canonical name, such as `click`, and the name of the property that a host attaches
its handler to, such as `onClick`.
-/

namespace UiDoc.EventName

/-- The canonical name of an event: a property name loses its `on`. -/
def canonical (name : String) : String :=
  let cs := Text.trim name.toList
  match cs with
  | 'o' :: 'n' :: c :: rest =>
      if Text.isUpper c then String.ofList (Text.lowerChar c ++ rest) else String.ofList cs
  | _ => String.ofList cs

/-- The property name of an event. -/
def host (name : String) : String :=
  match name.toList with
  | [] => "on"
  | c :: rest => "on" ++ String.ofList (Text.upperChar c ++ rest)

end UiDoc.EventName
