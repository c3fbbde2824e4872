import UiDoc.Value

/-!
# Paths

A path such as `a.b[0]["c d"]` is a list of segments, each of which takes one step into a value.  A
segment is written after a point, or between brackets, where it may also be quoted.  Reading a path
never fails: what is missing at its end is taken as written.
-/

namespace UiDoc

namespace Path

/-- Where the reader of a path stands.  Characters of the current segment are kept in reverse. -/
inductive Place where
  /-- Outside of brackets. -/
  | plain (name : List Char)
  /-- Right behind an opening bracket. -/
  | opened
  /-- Between brackets, without quotes. -/
  | bracket (name : List Char)
  /-- Between the quotes of a bracket. -/
  | quoted (quote : Char) (name : List Char)
  /-- Behind the quotes of a bracket, where nothing but the closing bracket counts. -/
  | closing (name : List Char)
  deriving DecidableEq, Repr

/-- The segment of the characters outside of brackets; none if there are no characters. -/
def plainSegment (name : List Char) : List String :=
  if name.isEmpty then [] else [String.ofList name.reverse]

/-- The segment of the characters between brackets. -/
def bracketSegment (name : List Char) : String :=
  String.ofList (Text.trim name.reverse)

/-- The segments of the rest of a path. -/
def segmentsFrom : Place → List Char → List String
  | .plain name, [] => plainSegment name
  | .plain name, c :: cs =>
      if c = '.' then plainSegment name ++ segmentsFrom (.plain []) cs
      else if c = '[' then plainSegment name ++ segmentsFrom .opened cs
      else segmentsFrom (.plain (c :: name)) cs
  | .opened, [] => [""]
  | .opened, c :: cs =>
      if c = '"' ∨ c = '\'' then segmentsFrom (.quoted c []) cs
      else if c = ']' then "" :: segmentsFrom (.plain []) cs
      else segmentsFrom (.bracket [c]) cs
  | .bracket name, [] => [bracketSegment name]
  | .bracket name, c :: cs =>
      if c = ']' then bracketSegment name :: segmentsFrom (.plain []) cs
      else segmentsFrom (.bracket (c :: name)) cs
  | .quoted _ name, [] => [bracketSegment name]
  | .quoted quote name, c :: cs =>
      if c = quote then segmentsFrom (.closing name) cs
      else segmentsFrom (.quoted quote (c :: name)) cs
  | .closing name, [] => [bracketSegment name]
  | .closing name, c :: cs =>
      if c = ']' then bracketSegment name :: segmentsFrom (.plain []) cs
      else segmentsFrom (.closing name) cs

/-- The segments of a path. -/
def segments (path : String) : List String :=
  segmentsFrom (.plain []) path.toList

/-- The item at the index that a segment denotes. -/
def index? {α : Type} (at? : Nat → Option α) (segment : String) : Option α :=
  (Decimal.readCount segment.toList).bind at?

/-- One step into a value.  Arrays and texts have a `length`; the characters of a text are counted
in UTF-16 units. -/
def step (value : Json) (segment : String) : Value :=
  match value with
  | .obj fields => Record.find? fields segment
  | .arr items =>
      if segment = "length" then some (.nat items.length) else index? (items[·]?) segment
  | .str s =>
      if segment = "length" then some (.nat (Text.unitLength s.toList))
      else
        index? (fun i => (Text.unitAt? s.toList i).map fun c => .str (String.singleton c)) segment
  | _ => none

/-- The value at the end of the steps. -/
def walkSegments (value : Json) : List String → Value
  | [] => some value
  | segment :: rest =>
      match step value segment with
      | some next => walkSegments next rest
      | none => none

/-- The value at a path. -/
def walk (value : Json) (path : String) : Value :=
  walkSegments value (segments path)

end Path

end UiDoc
