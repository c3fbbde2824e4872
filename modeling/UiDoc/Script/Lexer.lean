import UiDoc.Text.Identifier
import UiDoc.Text.Search
import UiDoc.Script.Numeral
import UiDoc.Script.Quoted

/-!
# Splitting a script into tokens

Tokens are read one at a time: the reader of a script always knows the next token and the text
behind it.
-/

namespace UiDoc.Script

/-- The signs of the language, longer ones before those that they start with. -/
def signs : List String := [
  ">>>=", "...", "===", "!==", "**=", "<<=", ">>=", ">>>", "&&=", "||=", "??=", "=>", "==", "!=",
  "<=", ">=", "&&", "||", "??", "?.", "++", "--", "+=", "-=", "*=", "/=", "%=", "&=", "|=", "^=",
  "<<", ">>", "**", "\x7b", "\x7d", "(", ")", "[", "]", ";", ",", "<", ">", "+", "-", "*", "/", "%",
  "&", "|", "^", "!", "~", "?", ":", "=", ".", "@"]

/-- The longest of some signs that starts a text, and the rest.  A point that belongs to a number is
not part of `?.`. -/
def readSignOf (cs : List Char) : List String → Option (Token × List Char)
  | [] => none
  | s :: rest =>
      match Text.dropLeading? s.toList cs with
      | none => readSignOf cs rest
      | some after =>
          if s = "?." ∧ after.head?.any (fun c => '0' ≤ c ∧ c ≤ '9') then readSignOf cs rest
          else some (.sign s, after)

/-- The sign at the start of a text, and the rest. -/
def readSign (cs : List Char) : Option (Token × List Char) :=
  readSignOf cs signs

/-- Reads a character of an identifier, perhaps as an escape; returns whether it was one. -/
def readNameChar? (wanted : Char → Bool) : List Char → Option (Char × Bool × List Char)
  | '\\' :: 'u' :: cs =>
      match unicodeEscape? cs with
      | some (.char c, rest) => if wanted c then some (c, true, rest) else none
      | _ => none
  | c :: cs => if wanted c then some (c, false, cs) else none
  | [] => none

/-- Reads the rest of an identifier; `none` if an escape in it is wrong.  The fuel is at least the
length of the text. -/
def readNameRest : (fuel : Nat) → List Char → Option (List Char × Bool × List Char)
  | 0, cs => some ([], false, cs)
  | fuel + 1, cs =>
      match readNameChar? Text.isIdentifierPart cs with
      | some (c, escaped, rest) =>
          (readNameRest fuel rest).map fun (name, more, rest) => (c :: name, escaped || more, rest)
      | none =>
          match cs with
          | '\\' :: _ => none
          | _ => some ([], false, cs)

/-- Reads an identifier at the start of a text. -/
def readName (cs : List Char) : Option (List Char × Bool × List Char) := do
  let (c, escaped, rest) ← readNameChar? Text.isIdentifierStart cs
  let (name, more, rest) ← readNameRest rest.length rest
  return (c :: name, escaped || more, rest)

/-- The token of a quoted text. -/
def quoteToken : Option Quote → Option (Token × List Char)
  | some quote => if quote.sound then some (.text (textOf quote.units), quote.rest) else none
  | none => some (.unreadable, [])

/-- The token of a part of a template. -/
def templateToken : Option Quote → Token × List Char
  | some quote => (.template (textOf quote.units) quote.ended quote.sound, quote.rest)
  | none => (.unreadable, [])

/-- Reads the token at the start of a text without leading white space; `none` if that is a token
with a mistake in it. -/
def readToken : List Char → Option (Token × List Char)
  | [] => some (.finish, [])
  | c :: cs =>
      if c = '"' ∨ c = '\'' then quoteToken (readText c (cs.length + 1) cs)
      else if c = '`' then some (templateToken (readTemplate (cs.length + 1) cs))
      else if isDigitIn 10 c ∨ (c = '.' ∧ cs.head?.any (isDigitIn 10)) then readNumeral (c :: cs)
      else if c = '#' then
        if cs.head?.any fun c => c = '\\' ∨ Text.isIdentifierStart c then
          (readName cs).map fun (name, _, rest) => (.hidden (String.ofList name), rest)
        else some (.unreadable, cs)
      else if c = '\\' ∨ Text.isIdentifierStart c then
        (readName (c :: cs)).map fun (name, escaped, rest) =>
          (.name (String.ofList name) escaped, rest)
      else some ((readSign (c :: cs)).getD (.unreadable, cs))

/-- The next token of a script, and what stands around it. -/
structure Cursor where
  token : Token
  /-- Whether a line ends in front of the token. -/
  newline : Bool
  /-- The text behind the token. -/
  rest : List Char

namespace Cursor

/-- The first token of a text; `none` if there is a mistake in it.  A comment without an end is no
token. -/
def first? (cs : List Char) : Option Cursor :=
  match skipGap false .blank cs with
  | none => some ⟨.unreadable, false, []⟩
  | some (newline, cs) => (readToken cs).map fun (token, rest) => ⟨token, newline, rest⟩

/-- The token behind the next one. -/
def next? (c : Cursor) : Option Cursor :=
  first? c.rest

/-- Reads on in a template behind a placeholder, whose closing brace is the next token. -/
def continueTemplate (c : Cursor) : Cursor :=
  let (token, rest) := templateToken (readTemplate (c.rest.length + 1) c.rest)
  ⟨token, false, rest⟩

/-- Whether there is a token. -/
def isReadable (c : Cursor) : Bool :=
  c.token != .unreadable && c.token != .finish

/-- Whether the next token is a sign. -/
def atSign (c : Cursor) (s : String) : Bool :=
  c.token == .sign s

/-- Whether the next token is a word. -/
def atWord (c : Cursor) (word : String) : Bool :=
  match c.token with
  | .name name _ => name == word
  | _ => false

end Cursor

end UiDoc.Script
