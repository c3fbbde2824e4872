import UiDoc.Script.Lexer

/-!
# Regular expressions in a script

Scripts may not use them; it is only known where they end.
-/

namespace UiDoc.Script

/-- Whether a character is a letter behind a regular expression, or would be one. -/
def isFlag (c : Char) : Bool :=
  Text.isPlainStart c ∨ ('0' ≤ c ∧ c ≤ '9')

/-- Goes past a regular expression behind its first slash.  `inSet` tells whether the reader is
inside of brackets. -/
def skipPattern (inSet : Bool) : List Char → Option (List Char)
  | [] => none
  | ['\\'] => none
  | '\\' :: c :: cs => if isLineEnd c then none else skipPattern inSet cs
  | c :: cs =>
      if isLineEnd c then none
      else if c = '/' ∧ !inSet then
        let flags := cs.takeWhile isFlag
        if flags.all ("dgimsuvy".toList.contains ·) ∧ flags.eraseDups.length = flags.length then
          some (cs.dropWhile isFlag)
        else none
      else skipPattern (c = '[' || (inSet && c != ']')) cs

/-- The next token behind a regular expression whose first slash is the next token. -/
def Cursor.behindPattern? (c : Cursor) : Option Cursor :=
  match c.token with
  | .sign "/" => (skipPattern false c.rest).bind Cursor.first?
  | .sign "/=" => (skipPattern false ('=' :: c.rest)).bind Cursor.first?
  | _ => none

end UiDoc.Script
