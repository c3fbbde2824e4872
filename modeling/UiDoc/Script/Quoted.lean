import UiDoc.Json.Draft
import UiDoc.Json.Printer
import UiDoc.Script.Token

/-!
# Texts and templates of a script

An escape can name half of a character outside the basic plane.  Two fitting halves side by side are
the character.  A half that stands alone is written with a marker, the replacement character and
four hexadecimal digits; where there is one in a text, replacement characters are marked likewise.
-/

namespace UiDoc.Script

/-- What an escape or a plain character of a text stands for. -/
inductive Unit16 where
  | char (c : Char)
  /-- A character that has no meaning of its own behind a backslash. -/
  | escaped (c : Char)
  | half (code : Nat)
  deriving DecidableEq, Repr

/-- The replacement character, marking a code. -/
def marked (code : Nat) : List Char :=
  let digit (place : Nat) : Char := Json.hexDigit (code / place % 16)
  [Char.ofNat 0xFFFD, digit 4096, digit 256, digit 16, digit 1]

/-- Whether there is half of a character. -/
def hasHalf (units : List Unit16) : Bool :=
  units.any fun
    | .half _ => true
    | .char _ | .escaped _ => false

/-- The characters of units; `halves` tells whether replacement characters are marked.  One behind a
backslash is marked only if a half follows it. -/
def unitChars (halves : Bool) : List Unit16 → List Char
  | [] => []
  | .half code :: units => marked code ++ unitChars halves units
  | .char c :: units =>
      (if c.toNat = 0xFFFD ∧ halves then marked 0xFFFD else [c]) ++ unitChars halves units
  | .escaped c :: units =>
      (if c.toNat = 0xFFFD ∧ hasHalf units then marked 0xFFFD else [c]) ++ unitChars halves units

/-- The text of units. -/
def textOf (units : List Unit16) : String :=
  String.ofList (unitChars (hasHalf units) units)

/-- The unit of a code point; `none` if the number is too large. -/
def unitOf? (code : Nat) : Option Unit16 :=
  if 0xD800 ≤ code ∧ code ≤ 0xDFFF then some (.half code)
  else if code ≤ 0x10FFFF then some (.char (Char.ofNat code))
  else none

/-- The number of some hexadecimal digits. -/
def hexNumber? (digits : List Char) : Option Nat :=
  digits.foldlM (fun n c => (Json.hexValue? c).map (16 * n + ·)) 0

/-- Four hexadecimal digits, and the rest. -/
def fourDigits? : List Char → Option (Nat × List Char)
  | a :: b :: c :: d :: rest => (hexNumber? [a, b, c, d]).map fun n => (n, rest)
  | _ => none

/-- The code in braces behind `\u`, and the rest. -/
def bracedCode? (cs : List Char) : Option (Nat × List Char) :=
  match cs.takeWhile (fun c => (Json.hexValue? c).isSome),
      cs.dropWhile (fun c => (Json.hexValue? c).isSome) with
  | [], _ => none
  | digits, '}' :: rest =>
      (hexNumber? digits).bind fun n => if n ≤ 0x10FFFF then some (n, rest) else none
  | _, _ => none

/-- What `\u` and the text behind it stand for. -/
def unicodeEscape? : List Char → Option (Unit16 × List Char)
  | '{' :: cs => (bracedCode? cs).bind fun (n, rest) => (unitOf? n).map (·, rest)
  | cs =>
      match fourDigits? cs with
      | none => none
      | some (high, rest) =>
          let single := (unitOf? high).map (·, rest)
          if 0xD800 ≤ high ∧ high ≤ 0xDBFF then
            match rest with
            | '\\' :: 'u' :: more =>
                match more with
                | '{' :: _ => single
                | _ =>
                    match fourDigits? more with
                    | none => none
                    | some (low, rest) =>
                        if 0xDC00 ≤ low ∧ low ≤ 0xDFFF then
                          some (.char (Char.ofNat
                            (0x10000 + (high - 0xD800) * 0x400 + (low - 0xDC00))), rest)
                        else single
            | _ => single
          else single

/-- An escape by octal digits, of which there is at least one, and the rest. -/
def octalEscape (first : Char) (cs : List Char) : Unit16 × List Char :=
  let more := if first ≤ '3' then 2 else 1
  let octal (c : Char) : Bool := '0' ≤ c ∧ c ≤ '7'
  let digits := (cs.takeWhile octal).take more
  (.char (Char.ofNat (((first :: digits).foldl (fun n c => 8 * n + (c.toNat - '0'.toNat)) 0))),
    cs.drop digits.length)

/-- The character of an escape by a single letter. -/
def letterEscape? (c : Char) : Option Char :=
  if c = 'b' then some (Char.ofNat 8)
  else if c = 'f' then some (Char.ofNat 12)
  else if c = 'n' then some '\n'
  else if c = 'r' then some '\r'
  else if c = 't' then some '\t'
  else if c = 'v' then some (Char.ofNat 11)
  else none

/-- What stands behind a backslash: units, and the rest.  Digits other than a lone zero are allowed
in texts only. -/
def escape? (inTemplate : Bool) : List Char → Option (List Unit16 × List Char)
  | [] => none
  | '\r' :: '\n' :: cs => some ([], cs)
  | 'u' :: cs => (unicodeEscape? cs).map fun (unit, rest) => ([unit], rest)
  | 'x' :: a :: b :: cs => (hexNumber? [a, b]).map fun n => ([.char (Char.ofNat n)], cs)
  | ['x'] => none
  | ['x', _] => none
  | c :: cs =>
      match letterEscape? c with
      | some d => some ([.char d], cs)
      | none =>
          if isLineEnd c then some ([], cs)
          else if '0' ≤ c ∧ c ≤ '9' then
            if c = '0' ∧ !cs.head?.any (fun d => '0' ≤ d ∧ d ≤ '9') then
              some ([.char (Char.ofNat 0)], cs)
            else if inTemplate then none
            else if '8' ≤ c then some ([.char c], cs)
            else
              let (unit, rest) := octalEscape c cs
              some ([unit], rest)
          else some ([.escaped c], cs)

/-- A quoted text that has been read. -/
structure Quote where
  units : List Unit16
  /-- Whether all escapes are right. -/
  sound : Bool
  /-- Whether it ended, rather than stopping at a placeholder. -/
  ended : Bool
  /-- The text behind it. -/
  rest : List Char

/-- The quote with more units in front. -/
def Quote.behind (units : List Unit16) (quote : Quote) : Quote :=
  { quote with units := units ++ quote.units }

/-- The quote behind a wrong escape. -/
def Quote.unsound (quote : Quote) : Quote :=
  { quote with sound := false }

/-- Reads a text up to its closing quote; `none` if there is none in the line.  The fuel is at least
the length of the text. -/
def readText (mark : Char) : (fuel : Nat) → List Char → Option Quote
  | 0, _ => none
  | _, [] => none
  | fuel + 1, c :: cs =>
      if c = mark then some ⟨[], true, true, cs⟩
      else if c = '\\' then
        match escape? false cs with
        | some (units, rest) => (readText mark fuel rest).map (Quote.behind units)
        | none => (readText mark fuel (cs.drop 1)).map Quote.unsound
      else if c = '\n' ∨ c = '\r' then none
      else (readText mark fuel cs).map (Quote.behind [.char c])

/-- Reads a template up to its end, or up to a placeholder; `none` if it does not end.  The fuel is
at least the length of the text. -/
def readTemplate : (fuel : Nat) → List Char → Option Quote
  | 0, _ => none
  | _, [] => none
  | _, '$' :: '{' :: cs => some ⟨[], true, false, cs⟩
  | fuel + 1, '\r' :: '\n' :: cs => (readTemplate fuel cs).map (Quote.behind [.char '\n'])
  | fuel + 1, c :: cs =>
      if c = '`' then some ⟨[], true, true, cs⟩
      else if c = '\\' then
        match escape? true cs with
        | some (units, rest) => (readTemplate fuel rest).map (Quote.behind units)
        | none => (readTemplate fuel (cs.drop 1)).map Quote.unsound
      else
        let d := if c = '\r' then '\n' else c
        (readTemplate fuel cs).map (Quote.behind [.char d])

end UiDoc.Script
