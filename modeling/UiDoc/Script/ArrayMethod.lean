import UiDoc.Script.Term
import UiDoc.Script.Argument
import UiDoc.Script.Operator

/-!
# Methods of arrays

A callback gets an item and its index.
-/

namespace UiDoc.Script

/-- The callback in the first argument. -/
def callbackArgument : List Arg → Except Fault Callback
  | .callback f :: _ => .ok f
  | _ => .error .mistyped

/-- Calls a callback with an item and its index. -/
def callOn (f : Callback) (item : Json) (i : Nat) : Run Value :=
  f [some item, integer i]

/-- What a callback makes of the items from an index on. -/
def mapItems (f : Callback) : Nat → List Json → Run (List Json)
  | _, [] => pure []
  | i, item :: items => do
      let v ← callOn f item i
      let rest ← mapItems f (i + 1) items
      pure (v.getD .null :: rest)

/-- The items from an index on for which a callback gives what counts as true. -/
def filterItems (f : Callback) : Nat → List Json → Run (List Json)
  | _, [] => pure []
  | i, item :: items => do
      let v ← callOn f item i
      let rest ← filterItems f (i + 1) items
      pure (if Value.truthy v then item :: rest else rest)

/-- The first item from an index on for which a callback gives what counts as `wanted`, with its
index. -/
def findItem (f : Callback) (wanted : Bool) : Nat → List Json → Run (Option (Json × Nat))
  | _, [] => pure none
  | i, item :: items => do
      let v ← callOn f item i
      if Value.truthy v = wanted then pure (some (item, i)) else findItem f wanted (i + 1) items

/-- What a callback makes of a value and the items from an index on, one after the other. -/
def reduceItems (f : Callback) : Value → Nat → List Json → Run Value
  | v, _, [] => pure v
  | v, i, item :: items => do
      let v ← f [v, some item, integer i]
      reduceItems f v (i + 1) items

/-- The start of a reduction and the items that are left: a given value, else the first item. -/
def reduceStart (args : List Arg) (items : List Json) :
    Except Fault (Value × Nat × List Json) :=
  match args[1]?, items with
  | some (Arg.value v), _ => .ok (v, 0, items)
  | _, item :: rest => .ok (some item, 1, rest)
  | _, [] => .error .mistyped

/-- The text of an item between separators; that of `null` is empty. -/
def joinedText (item : Json) : String :=
  Value.shown (some item)

/-- The texts of items with a separator between them, unless they are too long. -/
def joinItems (separator : String) (items : List Json) : Except Fault Value :=
  let texts := items.map joinedText
  let bytes :=
    total (texts.map String.utf8ByteSize) + (texts.length - 1) * separator.utf8ByteSize
  if maxTextBytes < bytes then .error .overBudget
  else .ok (some (.str (separator.intercalate texts)))

/-- Adds the values of arguments to an array: the items of arrays, and all else as it is. -/
def concatItems : List Json → List Arg → Except Fault (List Json)
  | items, [] => .ok items
  | items, arg :: args =>
      match arg.toValue with
      | some (.arr more) =>
          if maxItems < items.length + more.length then .error .overBudget
          else concatItems (items ++ more) args
      | some v => concatItems (items ++ [v]) args
      | none => concatItems (items ++ [.null]) args

/-- The index of the first item that equals a value. -/
def indexOfItem (items : List Json) (v : Value) : Option Nat :=
  items.findIdx? fun item => Value.strictEq (some item) v

/-- The value of a method of an array. -/
def Method.applyToArray (items : List Json) (args : List Arg) : Method → Run Value
  | map => do
      let f ← Run.ofExcept (callbackArgument args)
      let mapped ← mapItems f 0 items
      pure (some (.arr mapped))
  | filter => do
      let f ← Run.ofExcept (callbackArgument args)
      let kept ← filterItems f 0 items
      pure (some (.arr kept))
  | find => do
      let f ← Run.ofExcept (callbackArgument args)
      let found ← findItem f true 0 items
      pure (found.map (·.1))
  | findIndex => do
      let f ← Run.ofExcept (callbackArgument args)
      let found ← findItem f true 0 items
      pure (integer ((found.map fun (_, i) => Int.ofNat i).getD (-1)))
  | any => do
      let f ← Run.ofExcept (callbackArgument args)
      let found ← findItem f true 0 items
      pure (truth found.isSome)
  | every => do
      let f ← Run.ofExcept (callbackArgument args)
      let found ← findItem f false 0 items
      pure (truth found.isNone)
  | reduce => do
      let f ← Run.ofExcept (callbackArgument args)
      let (start, i, rest) ← Run.ofExcept (reduceStart args items)
      reduceItems f start i rest
  | join =>
      Run.ofExcept (joinItems (((argument args 0).map Value.jsonText).getD ",") items)
  | includes => pure (truth (indexOfItem items (argument args 0)).isSome)
  | indexOf =>
      pure (integer (((indexOfItem items (argument args 0)).map Int.ofNat).getD (-1)))
  | slice =>
      let (start, stop) := sliceBounds args items.length
      pure (some (.arr (between start stop items)))
  | concat => do
      let joined ← Run.ofExcept (concatItems items args)
      pure (some (.arr joined))
  | reverse => pure (some (.arr items.reverse))
  | toString => pure (some (.str (Value.jsonText (.arr items))))
  | toUpperCase | toLowerCase | trim | trimStart | trimEnd | startsWith | endsWith | charAt
  | substring | split | replace | replaceAll | padStart | padEnd | repeated | toFixed =>
      throw .mistyped

end UiDoc.Script
