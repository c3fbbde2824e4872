/-!
# Counting text in UTF-16 units

Lengths and indices that a document sees count UTF-16 units: a character outside the basic plane
counts twice.  A text cannot hold half of such a character, so an index that points at a half gives
the replacement character.
-/

namespace UiDoc.Text

/-- The number of UTF-16 units of a character. -/
def unitWidth (c : Char) : Nat :=
  if c.toNat < 0x10000 then 1 else 2

/-- The number of UTF-16 units of a text. -/
def unitLength (cs : List Char) : Nat :=
  cs.foldl (fun count c => count + unitWidth c) 0

/-- What stands for half of a character outside the basic plane. -/
def replacement : Char := '\uFFFD'

/-- The text of the UTF-16 unit at an index. -/
def unitAt? : List Char → Nat → Option Char
  | [], _ => none
  | c :: cs, index =>
      if index < unitWidth c then
        some (if unitWidth c = 1 then c else replacement)
      else unitAt? cs (index - unitWidth c)

end UiDoc.Text
