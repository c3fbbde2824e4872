import UiDoc.Script.Lexer

/-!
# Steps of reading a script

A reader looks at the next token, goes past tokens, and fails for good where the script has a
mistake.
-/

namespace UiDoc.Script

/-- Words that cannot be names. -/
def reservedWords : List String := [
  "break", "case", "catch", "class", "const", "continue", "debugger", "default", "delete", "do",
  "else", "enum", "export", "extends", "false", "finally", "for", "function", "if", "import", "in",
  "instanceof", "new", "null", "return", "super", "switch", "this", "throw", "true", "try",
  "typeof", "var", "void", "while", "with"]

/-- What the surroundings of a part of a script make of some words. -/
structure Context where
  /-- Whether `in` is an operator. -/
  membership : Bool := true
  /-- Whether `await` is an operator. -/
  waits : Bool := false
  /-- Whether `yield` is an operator. -/
  yields : Bool := false
  /-- Whether there is a function to return from. -/
  returns : Bool := false

namespace Context

/-- The surroundings without the limits that hold inside of some statements only. -/
def inside (ctx : Context) : Context :=
  { ctx with membership := true }

/-- Whether a word can be a name. -/
def admits (ctx : Context) (word : String) : Bool :=
  !reservedWords.contains word && !(ctx.waits && word == "await") &&
    !(ctx.yields && word == "yield")

/-- The surroundings in a function of its own. -/
def ofFunction (waits yields : Bool) : Context where
  waits := waits
  yields := yields
  returns := true

end Context

/-- Reads from the tokens of a script. -/
abbrev Reader := StateT Cursor Option

namespace Reader

/-- The next token and what stands around it. -/
def cursor : Reader Cursor := get

/-- Goes past the next token. -/
def skip : Reader Unit := fun c => c.next?.map ((), ·)

/-- The token behind the next one, and what stands around it, if there is no mistake in it. -/
def second : Reader (Option Cursor) := fun c => some (c.next?, c)

/-- Whether the next token is a sign. -/
def isAt (s : String) : Reader Bool := fun c => some (c.atSign s, c)

/-- Whether the next token is a word. -/
def isAtWord (word : String) : Reader Bool := fun c => some (c.atWord word, c)

/-- Goes past a sign that has to be there. -/
def expect (s : String) : Reader Unit := do
  if ← isAt s then skip else failure

/-- Goes past a sign if it is there. -/
def accept (s : String) : Reader Bool := do
  if ← isAt s then
    skip
    return true
  else return false

/-- Goes past a word that has to be there; it must not have escapes in it. -/
def expectWord (word : String) : Reader Unit := do
  if (← cursor).token = .name word false then skip else failure

/-- Goes past a word if it is there. -/
def acceptWord (word : String) : Reader Bool := do
  if ← isAtWord word then
    expectWord word
    return true
  else return false

/-- Goes past a name. -/
def name (ctx : Context) : Reader String := do
  match (← cursor).token with
  | .name n _ =>
      if ctx.admits n then
        skip
        return n
      else failure
  | _ => failure

/-- Goes past a name if it is there. -/
def name? (ctx : Context) : Reader (Option String) := do
  match (← cursor).token with
  | .name n _ =>
      if ctx.admits n then
        skip
        return some n
      else return none
  | _ => return none

/-- Goes past the end of a statement, which a line or a block may end too. -/
def endStatement : Reader Unit := do
  let c ← cursor
  if c.atSign ";" then skip
  else if c.newline || c.atSign "\x7d" || c.token == .finish then return ()
  else failure

end Reader

end UiDoc.Script
