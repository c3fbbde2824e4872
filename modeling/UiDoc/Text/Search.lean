/-!
# Finding and replacing text

Searches go from left to right, and matches do not overlap.  The empty text is found in front of
every character and at the end.

A search reads each character of the text once.  It keeps count of how much of the pattern stands
just in front of the next character; where the next character does not go on with the pattern, a
shorter beginning of the pattern may still stand there.
-/

namespace UiDoc.Text

/-- What follows `pattern`, if the text starts with it. -/
def dropLeading? : (pattern text : List Char) → Option (List Char)
  | [], text => some text
  | _ :: _, [] => none
  | p :: pattern, c :: text => if p = c then dropLeading? pattern text else none

/-- Whether the text starts with `pattern`. -/
def startsWith (pattern text : List Char) : Bool :=
  (dropLeading? pattern text).isSome

/-- Whether the text ends with `pattern`. -/
def endsWith (pattern text : List Char) : Bool :=
  startsWith pattern.reverse text.reverse

/-- A pattern that is searched for. -/
structure Needle where
  chars : Array Char
  /-- For each beginning of the pattern, from the shortest one: the length of the longest shorter
  beginning with which it ends. -/
  borders : Array Nat := #[]
  deriving DecidableEq, Repr

namespace Needle

/-- The length of a pattern. -/
def size (needle : Needle) : Nat :=
  needle.chars.size

/-- How much of the pattern stands in front of what follows `c`, if `seen` characters of it stand
in front of `c`.  `tries` bounds how many beginnings are looked at. -/
def advance (needle : Needle) (c : Char) : (tries seen : Nat) → Nat
  | 0, _ => 0
  | tries + 1, seen =>
      if needle.chars[seen]? = some c then seen + 1
      else if seen = 0 then 0
      else needle.advance c tries (needle.borders.getD (seen - 1) 0)

/-- How much of the pattern stands in front of what follows `c`. -/
def next (needle : Needle) (seen : Nat) (c : Char) : Nat :=
  needle.advance c (seen + 1) seen

/-- Fills in how far the beginnings of a pattern end like shorter ones, of which the last one that
is known ends with `seen` characters. -/
def withBorders : (seen : Nat) → Needle → (rest : List Char) → Needle
  | _, needle, [] => needle
  | seen, needle, c :: rest =>
      let seen := needle.next seen c
      withBorders seen { needle with borders := needle.borders.push seen } rest

/-- The pattern with these characters. -/
def ofList (pattern : List Char) : Needle :=
  withBorders 0 { chars := pattern.toArray, borders := #[0] } pattern.tail

/-- The number of characters in front of the first occurrence in a text of which `done` characters
have been read. -/
def findFrom (needle : Needle) : (seen done : Nat) → List Char → Option Nat
  | seen, done, [] => if seen = needle.size then some (done - seen) else none
  | seen, done, c :: text =>
      if seen = needle.size then some (done - seen)
      else needle.findFrom (needle.next seen c) (done + 1) text

/-- The pieces of a text between the occurrences of a non-empty pattern, on top of `pieces`, with
the last one first.  `piece` is the current piece in reverse. -/
def splitFrom (needle : Needle) :
    (seen : Nat) → (piece : List Char) → (pieces : List (List Char)) → List Char →
      List (List Char)
  | _, piece, pieces, [] => piece.reverse :: pieces
  | seen, piece, pieces, c :: text =>
      let seen := needle.next seen c
      if seen = needle.size then
        needle.splitFrom 0 [] ((piece.drop (seen - 1)).reverse :: pieces) text
      else needle.splitFrom seen (c :: piece) pieces text

end Needle

/-- The number of characters in front of the first occurrence of `pattern`. -/
def find? (pattern text : List Char) : Option Nat :=
  (Needle.ofList pattern).findFrom 0 0 text

/-- Whether `pattern` occurs in the text. -/
def contains (pattern text : List Char) : Bool :=
  (find? pattern text).isSome

/-- The pieces of a text between the occurrences of a non-empty pattern. -/
def splitOn (pattern text : List Char) : List (List Char) :=
  ((Needle.ofList pattern).splitFrom 0 [] [] text).reverse

/-- The number of occurrences of a pattern. -/
def count (pattern text : List Char) : Nat :=
  if pattern.isEmpty then text.length + 1 else (splitOn pattern text).length - 1

/-- The text with every occurrence of `pattern` replaced. -/
def replaceAll (pattern replacement text : List Char) : List Char :=
  if pattern.isEmpty then replacement ++ text.flatMap fun c => c :: replacement
  else replacement.intercalate (splitOn pattern text)

/-- The text with the first occurrence of `pattern` replaced. -/
def replaceFirst (pattern replacement text : List Char) : List Char :=
  match find? pattern text with
  | some before => text.take before ++ replacement ++ text.drop (before + pattern.length)
  | none => text

/-- The first `count` characters of `text` repeated for ever; none if `text` is empty. -/
def cycle (text : List Char) (count : Nat) : List Char :=
  (List.replicate (count / text.length + 1) text).flatten.take count

end UiDoc.Text
