import UiDoc.Script.Machine

/-!
# Arguments of functions and methods
-/

namespace UiDoc.Script

/-- The value of an argument; one that is missing is undefined. -/
def argument (args : List Arg) (i : Nat) : Value :=
  args[i]?.bind Arg.toValue

/-- The text of an argument that is not undefined. -/
def textArgument? (args : List Arg) (i : Nat) : Option (List Char) :=
  (argument args i).map fun v => (Value.jsonText v).toList

/-- The text of an argument, or nothing. -/
def textArgument (args : List Arg) (i : Nat) : List Char :=
  (textArgument? args i).getD []

/-- The number of an argument that is not undefined. -/
def numberArgument? (args : List Arg) (i : Nat) : Option Float :=
  (argument args i).map Value.jsonToFloat

/-- The number of an argument, or zero. -/
def numberArgument (args : List Arg) (i : Nat) : Float :=
  (numberArgument? args i).getD 0.0

/-- The position that a number denotes in a sequence of some length; negative numbers count from the
end. -/
def position (length : Nat) (x : Float) : Nat :=
  if x.isNaN then 0
  else if x < 0.0 then Binary64.toCount (Float.ofNat length + Binary64.truncate x)
  else min (Binary64.toCount x) length

/-- The start and the end of a slice. -/
def sliceBounds (args : List Arg) (length : Nat) : Nat × Nat :=
  let start := ((numberArgument? args 0).map (position length)).getD 0
  let stop := ((numberArgument? args 1).map (position length)).getD length
  (start, max start stop)

/-- The items from one position up to another. -/
def between {α : Type} (start stop : Nat) (items : List α) : List α :=
  (items.take stop).drop start

end UiDoc.Script
