import UiDoc.Text.Class

/-!
# Tokens of a script

Between tokens stand white space and comments; whether a line ends there matters in a few places.
-/

namespace UiDoc.Script

/-- A token. -/
inductive Token where
  /-- An identifier or a keyword; keywords with escapes in them are marked. -/
  | name (name : String) (escaped : Bool)
  | number (x : Float)
  /-- An integer of unlimited size. -/
  | bigNumber (n : Nat)
  | text (s : String)
  /-- The text of a template up to its end, or up to a placeholder.  Only a template with a tag may
  have wrong escapes in it. -/
  | template (s : String) (ended sound : Bool)
  /-- A name behind `#`. -/
  | hidden (name : String)
  /-- An operator or a punctuation mark. -/
  | sign (s : String)
  /-- Text that starts no token. -/
  | unreadable
  | finish
  deriving DecidableEq

/-- Whether a character ends a line. -/
def isLineEnd (c : Char) : Bool :=
  c = '\n' ∨ c = '\r' ∨ c.toNat = 0x2028 ∨ c.toNat = 0x2029

/-- White space inside of a line: that of Unicode, and two characters more. -/
def isSpace (c : Char) : Bool :=
  (Text.isBlank c && !isLineEnd c) || c.toNat = 0x200B || c.toNat = 0xFEFF

/-- What the reader of white space and comments is in. -/
inductive Gap where
  | blank
  | lineComment
  | blockComment
  deriving DecidableEq, Repr

/-- Skips white space and comments.  Returns whether a line ended, and the rest; `none` if a comment
does not end. -/
def skipGap (newline : Bool) : Gap → List Char → Option (Bool × List Char)
  | .blank, [] => some (newline, [])
  | .blank, '/' :: '/' :: cs => skipGap newline .lineComment cs
  | .blank, '/' :: '*' :: cs => skipGap newline .blockComment cs
  | .blank, c :: cs =>
      if isLineEnd c then skipGap true .blank cs
      else if isSpace c then skipGap newline .blank cs
      else some (newline, c :: cs)
  | .lineComment, [] => some (newline, [])
  | .lineComment, c :: cs =>
      if isLineEnd c then skipGap true .blank cs else skipGap newline .lineComment cs
  | .blockComment, [] => none
  | .blockComment, '*' :: '/' :: cs => skipGap newline .blank cs
  | .blockComment, c :: cs => skipGap (newline || isLineEnd c) .blockComment cs

end UiDoc.Script
