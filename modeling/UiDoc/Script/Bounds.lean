import UiDoc.Value

/-!
# Bounds on the work of a script

A script may take only so many steps, and no value that it builds may be too large.
-/

namespace UiDoc.Script

/-- Why a script is abandoned. -/
inductive Fault where
  /-- It takes too many steps, or builds too large a value. -/
  | overBudget
  /-- A value is used in a way that its kind does not allow. -/
  | mistyped
  /-- A name has no value. -/
  | unknownName
  deriving DecidableEq, Repr

/-- The most steps that one evaluation may take. -/
def maxSteps : Nat := 10000

/-- The most bytes of a text that a script may build. -/
def maxTextBytes : Nat := twoTo 20

/-- The most items of an array that a script may build. -/
def maxItems : Nat := 10000

/-- The largest footprint of a value that a script may build. -/
def maxFootprint : Nat := 4 * maxTextBytes

/-- What each part of a value adds to its footprint. -/
def nodeCost : Nat := 16

mutual

/-- The size of a value: a constant for each part of it, and the bytes of its texts and names. -/
def footprint : Json → Nat
  | .str s => nodeCost + s.utf8ByteSize
  | .arr items => nodeCost + itemsFootprint items
  | .obj fields => nodeCost + fieldsFootprint fields
  | .null | .bool _ | .num _ => nodeCost
termination_by structural v => v

/-- The size of items. -/
def itemsFootprint : List Json → Nat
  | [] => 0
  | v :: vs => footprint v + itemsFootprint vs
termination_by structural v => v

/-- The size of fields. -/
def fieldsFootprint : List (String × Json) → Nat
  | [] => 0
  | (name, v) :: rest => name.utf8ByteSize + footprint v + fieldsFootprint rest
termination_by structural v => v

end

/-- Whether a built value stays within the bounds. -/
def withinBounds : Value → Bool
  | some (.str s) => s.utf8ByteSize ≤ maxTextBytes
  | some (.arr items) => items.length ≤ maxItems && footprint (.arr items) ≤ maxFootprint
  | some (.obj fields) => footprint (.obj fields) ≤ maxFootprint
  | _ => true

/-- A built value, if it stays within the bounds. -/
def bounded (v : Value) : Except Fault Value :=
  if withinBounds v then .ok v else .error .overBudget

/-- A built text, if it stays within the bounds. -/
def boundedText (cs : List Char) : Except Fault Value :=
  bounded (some (.str (String.ofList cs)))

end UiDoc.Script
