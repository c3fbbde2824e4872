import UiDoc.Text.Class
import UiDoc.Text.Identifier

/-!
# Which texts are paths

Inside an expression a path is an identifier followed by accesses: a point and an identifier, with
white space around the point; a point directly followed by digits; or brackets around digits or a
quoted text, with white space inside of the brackets.  A finite automaton decides this.
-/

namespace UiDoc.Expr.PathForm

/-- What has been read so far. -/
inductive State where
  /-- An identifier, up to here. -/
  | name
  /-- Digits behind a point, up to here. -/
  | digits
  /-- A closing bracket. -/
  | closed
  /-- White space that a point has to follow. -/
  | beforePoint
  /-- A point. -/
  | point
  /-- White space behind a point. -/
  | afterPoint
  /-- An opening bracket, perhaps with white space. -/
  | opened
  /-- Digits between brackets, up to here. -/
  | index
  /-- A quote between brackets, and text behind it. -/
  | quoted (quote : Char)
  /-- What stands between brackets, and perhaps white space behind it. -/
  | full
  deriving DecidableEq, Repr

/-- A character of an identifier that is not its first. -/
def isNamePart (c : Char) : Bool :=
  Text.isWord c || c == '$'

/-- How an access starts. -/
def State.access (c : Char) : Option State :=
  if c = '.' then some point
  else if c = '[' then some opened
  else if Text.isBlank c then some beforePoint
  else none

/-- Reads one more character. -/
def State.next (c : Char) : State → Option State
  | name => if isNamePart c then some name else access c
  | digits => if Text.isDigit c then some digits else access c
  | closed => access c
  | beforePoint =>
      if Text.isBlank c then some beforePoint else if c = '.' then some afterPoint else none
  | point =>
      if Text.isDigit c then some digits
      else if Text.isPlainStart c then some name
      else if Text.isBlank c then some afterPoint
      else none
  | afterPoint =>
      if Text.isPlainStart c then some name
      else if Text.isBlank c then some afterPoint
      else none
  | opened =>
      if Text.isBlank c then some opened
      else if Text.isDigit c then some index
      else if c = '"' ∨ c = '\'' then some (quoted c)
      else none
  | index =>
      if Text.isDigit c then some index
      else if c = ']' then some closed
      else if Text.isBlank c then some full
      else none
  | quoted quote => if c = quote then some full else some (quoted quote)
  | full => if c = ']' then some closed else if Text.isBlank c then some full else none

/-- Whether a path may end here. -/
def State.complete : State → Bool
  | name | digits | closed => true
  | _ => false

/-- Whether the rest of a text completes a path. -/
def completes : State → List Char → Bool
  | state, [] => state.complete
  | state, c :: cs =>
      match state.next c with
      | some state => completes state cs
      | none => false

/-- Whether a text is a path. -/
def isPath : List Char → Bool
  | [] => false
  | c :: cs => Text.isPlainStart c && completes .name cs

end UiDoc.Expr.PathForm
