import UiDoc.Value

/-!
# Literals

The words `true`, `false`, `null` and `undefined`, quoted texts with backslash escapes, and decimal
numerals.
-/

namespace UiDoc.Expr

/-- What stands for a character behind a backslash. -/
def unescapeChar (c : Char) : Char :=
  if c = 'n' then '\n' else if c = 'r' then '\r' else if c = 't' then '\t' else c

/-- Reads the escapes of a text; a backslash at the end stands for itself. -/
def unescape : List Char → List Char
  | [] => []
  | '\\' :: c :: cs => unescapeChar c :: unescape cs
  | c :: cs => c :: unescape cs

/-- Whether a quote occurs that no backslash escapes. -/
def hasBareQuote (quote : Char) : List Char → Bool
  | [] => false
  | '\\' :: _ :: cs => hasBareQuote quote cs
  | c :: cs => c == quote || hasBareQuote quote cs

/-- The text that a quoted text stands for. -/
def readQuoted : List Char → Option String
  | [] => none
  | quote :: cs =>
      match cs.getLast? with
      | some last =>
          if (quote = '"' ∨ quote = '\'') ∧ last = quote ∧ !hasBareQuote quote cs.dropLast then
            some (String.ofList (unescape cs.dropLast))
          else none
      | none => none

/-- The number that a numeral with an optional minus sign stands for. -/
def readNumber : List Char → Option Json
  | '-' :: cs => (Decimal.readUnsigned cs).map fun d => Value.ofFloat (-d.toFloat)
  | cs => (Decimal.readUnsigned cs).map fun d => Value.ofFloat d.toFloat

/-- The value of a literal; `none` if the text is none. -/
def readLiteral (cs : List Char) : Option Value :=
  if cs = ['t', 'r', 'u', 'e'] then some (some (.bool true))
  else if cs = ['f', 'a', 'l', 's', 'e'] then some (some (.bool false))
  else if cs = ['n', 'u', 'l', 'l'] then some (some .null)
  else if cs = ['u', 'n', 'd', 'e', 'f', 'i', 'n', 'e', 'd'] then some none
  else
    match readQuoted cs with
    | some s => some (some (.str s))
    | none => (readNumber cs).map some

end UiDoc.Expr
