import UiDoc.Text.Identifier

/-!
# Which texts look like functions

Whether a transform is called with arguments is decided by how its text starts: with a name or a
list in parentheses, and an arrow behind it.
-/

namespace UiDoc.Script

/-- What follows a name or a list in parentheses, in which no further parenthesis stands. -/
def afterParameters : List Char → Option (List Char)
  | [] => none
  | c :: cs =>
      if c = '(' then
        match cs.dropWhile fun d => d ≠ '(' ∧ d ≠ ')' with
        | ')' :: rest => some rest
        | _ => none
      else if Text.isPlainStart c then
        some (cs.dropWhile fun d => Text.isWord d || d == '$')
      else none

/-- Whether a text starts like a function. -/
def startsLikeFunction (source : String) : Bool :=
  match (afterParameters (Text.trimStart source.toList)).map Text.trimStart with
  | some ('=' :: '>' :: _) => true
  | _ => false

end UiDoc.Script
