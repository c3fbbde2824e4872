import UiDoc.Text.LetterCase
import UiDoc.Text.Search
import UiDoc.Script.Term
import UiDoc.Script.Argument
import UiDoc.Script.Operator

/-!
# Methods of texts and numbers

Lengths and indices are counted in characters, except that `charAt` counts UTF-16 units.  A text
that would be too long is not built.
-/

namespace UiDoc.Script

/-- The number of bytes of characters. -/
def byteSize (cs : List Char) : Nat :=
  (String.ofList cs).utf8ByteSize

/-- The value of characters. -/
def textValue (cs : List Char) : Value :=
  some (.str (String.ofList cs))

/-- The array of texts. -/
def textsValue (pieces : List (List Char)) : Value :=
  some (.arr (pieces.map fun piece => .str (String.ofList piece)))

/-- A value, unless its text of so many bytes would be too long. -/
def unlessLong (bytes : Nat) (v : Value) : Except Fault Value :=
  if maxTextBytes < bytes then .error .overBudget else .ok v

/-- The position of an index in a text of some length, with negative numbers at its start. -/
def textPosition (length : Nat) (x : Float) : Nat :=
  min (Binary64.toCount x) length

/-- The part of a text between two indices in either order. -/
def substring (args : List Arg) (cs : List Char) : List Char :=
  let a := ((numberArgument? args 0).map (textPosition cs.length)).getD 0
  let b := ((numberArgument? args 1).map (textPosition cs.length)).getD cs.length
  between (min a b) (max a b) cs

/-- The pieces of a text between separators; single characters if the separator is empty. -/
def splitText (separator : Option (List Char)) (cs : List Char) : List (List Char) :=
  match separator with
  | none => [cs]
  | some [] => cs.map fun c => [c]
  | some separator => Text.splitOn separator cs

/-- A text with one or all occurrences of a pattern replaced. -/
def replaced (all : Bool) (args : List Arg) (cs : List Char) : Except Fault Value :=
  let pattern := (textArgument? args 0).getD "undefined".toList
  let replacement := (textArgument? args 1).getD "undefined".toList
  let hits :=
    if all then Text.count pattern cs else if Text.contains pattern cs then 1 else 0
  if maxTextBytes < byteSize cs + hits * byteSize replacement then .error .overBudget
  else if all then .ok (textValue (Text.replaceAll pattern replacement cs))
  else .ok (textValue (Text.replaceFirst pattern replacement cs))

/-- A text filled up to a length, at its start or at its end. -/
def padded (atStart : Bool) (args : List Arg) (cs : List Char) : Except Fault Value :=
  let target := Binary64.toCount (numberArgument args 0)
  let fill := (textArgument? args 1).getD [' ']
  if maxTextBytes < target then .error .overBudget
  else if target ≤ cs.length ∨ fill = [] then .ok (textValue cs)
  else
    let pad := Text.cycle fill (target - cs.length)
    .ok (textValue (if atStart then pad ++ cs else cs ++ pad))

/-- A text some times in a row. -/
def repeated (args : List Arg) (cs : List Char) : Except Fault Value :=
  let x := numberArgument args 0
  if x < 0.0 || !x.isFinite then .error .mistyped
  else
    let times := Binary64.toCount x
    if maxTextBytes < byteSize cs * times then .error .overBudget
    else if cs = [] then .ok (textValue [])
    else .ok (textValue (List.replicate times cs).flatten)

/-- The value of a method of a text. -/
def Method.applyToText (cs : List Char) (args : List Arg) : Method → Except Fault Value
  | toUpperCase => .ok (textValue (Text.upper cs))
  | toLowerCase => .ok (textValue (Text.lower cs))
  | trim => .ok (textValue (Text.trim cs))
  | trimStart => .ok (textValue (Text.trimStart cs))
  | trimEnd => .ok (textValue (Text.trimEnd cs))
  | toString => .ok (textValue cs)
  | includes => .ok (truth (Text.contains (textArgument args 0) cs))
  | startsWith => .ok (truth (Text.startsWith (textArgument args 0) cs))
  | endsWith => .ok (truth (Text.endsWith (textArgument args 0) cs))
  | indexOf =>
      .ok (integer (match Text.find? (textArgument args 0) cs with
        | some i => Int.ofNat i
        | none => -1))
  | charAt =>
      let x := numberArgument args 0
      .ok (textValue (if 0.0 ≤ x then (Text.unitAt? cs (Binary64.toCount x)).toList else []))
  | slice =>
      let (start, stop) := sliceBounds args cs.length
      .ok (textValue (between start stop cs))
  | substring => .ok (textValue (Script.substring args cs))
  | split => .ok (textsValue (splitText (textArgument? args 0) cs))
  | replace => replaced false args cs
  | replaceAll => replaced true args cs
  | padStart => padded true args cs
  | padEnd => padded false args cs
  | repeated => Script.repeated args cs
  | concat =>
      let pieces := args.map fun arg => (Value.text arg.toValue).toList
      unlessLong (byteSize cs + total (pieces.map byteSize)) (textValue (cs ++ pieces.flatten))
  | toFixed | map | filter | find | findIndex | any | every | reduce | join | reverse =>
      .error .mistyped

/-- The value of a method of a number. -/
def Method.applyToNumber (x : Float) (args : List Arg) : Method → Except Fault Value
  | toFixed =>
      let places := min (Binary64.toCount (numberArgument args 0)) 100
      .ok (textValue (Decimal.fixed places x))
  | toString => .ok (some (.str (Value.jsonText (Value.ofFloat x))))
  | _ => .error .mistyped

end UiDoc.Script
