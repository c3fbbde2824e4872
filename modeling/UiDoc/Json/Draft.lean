import UiDoc.Json

/-!
# Reading JSON

A text is first read into a `Draft`: the tree as far as the text could be read, with the first error
in its place.  Whoever decodes a draft in the order of the text meets a wrong shape or a broken text
first, whichever stands first.

A number can be too large for a double, and an escape can name half of a character.  Such a leaf is
an error only for those who need its value; it can be skipped.
-/

namespace UiDoc

/-- Why a text cannot be decoded. -/
inductive ReadError where
  /-- The text is not JSON. -/
  | malformed
  /-- The text ends too early. -/
  | unfinished
  /-- The value does not have the wanted shape. -/
  | mismatch
  deriving DecidableEq, Repr

namespace Json

/-- How an array or an object ends. -/
inductive Ending where
  | closed
  /-- Neither a comma nor the end follows. -/
  | broken (error : ReadError)
  /-- Nothing usable follows a comma. -/
  | brokenAfterComma (error : ReadError)
  /-- Something else stands where the first name should.  `asText` is the error for whoever wants a
  text there. -/
  | nameless (asText : ReadError)
  deriving DecidableEq, Repr

/-- The ending of an object when what ends it stands behind a comma. -/
def Ending.afterComma : Ending → Ending
  | .broken error => .brokenAfterComma error
  | ending => ending

/-- A JSON text as far as it could be read. -/
inductive Draft where
  | null
  | bool (b : Bool)
  | num (n : Num)
  | str (s : String)
  | arr (items : List Draft) (ending : Ending)
  /-- A name is absent if it has an escape that names half of a character. -/
  | obj (fields : List (Option String × Draft)) (ending : Ending)
  /-- A leaf without a value: the error of using it, the error for whoever wants a word, and the
  error of skipping it, if any. -/
  | flawed (used asWord : ReadError) (skipped : Option ReadError)

namespace Draft

/-- Text that is an error for everyone. -/
def broken (error : ReadError) : Draft := .flawed error error (some error)

/-- The start of a leaf that is no text. -/
def brokenLeaf (used skipped : ReadError) : Draft := .flawed used .malformed (some skipped)

/-- The error of a draft that does not have the wanted shape. -/
def refuse : Draft → ReadError
  | .flawed used _ _ => used
  | _ => .mismatch

end Draft

/-- Drops the blanks that JSON allows between tokens. -/
def skipBlanks (cs : List Char) : List Char :=
  cs.dropWhile fun c => c = ' ' ∨ c = '\n' ∨ c = '\t' ∨ c = '\r'

/-- Digits read into 64 bits: the value so far, how many digits no longer fitted, and the rest.
Once a digit does not fit, none after it is used. -/
def readBounded (value dropped : Nat) : List Char → Nat × Nat × List Char
  | [] => (value, dropped, [])
  | c :: cs =>
      match Decimal.digit? c with
      | none => (value, dropped, c :: cs)
      | some d =>
          if dropped = 0 ∧ 10 * value + d < twoTo 64 then readBounded (10 * value + d) 0 cs
          else readBounded value (dropped + 1) cs

/-- The power of ten with an exponent of at most 308. -/
def powerOfTen (exponent : Nat) : Float :=
  Float.ofScientific 1 false exponent

/-- A significand scaled by a power of ten with at most one rounding for each 308 decimal places;
`none` if the result is too large. -/
def scaleByTen : (steps : Nat) → Float → Int → Option Float
  | steps, x, exponent =>
      if exponent.natAbs ≤ 308 then
        if exponent < 0 then some (x / powerOfTen exponent.natAbs)
        else
          let y := x * powerOfTen exponent.natAbs
          if y.isInf then none else some y
      else if x == 0.0 then some x
      else if 0 ≤ exponent then none
      else
        match steps with
        | 0 => some 0.0
        | steps + 1 => scaleByTen steps (x / powerOfTen 308) (exponent + 308)

/-- The leaf for a number that is no integer. -/
def floatLeaf (negative : Bool) (significand : Nat) (exponent : Int) : Draft :=
  match scaleByTen 4 (Float.ofNat significand) exponent with
  | some x => .num (.float (Binary64.withSign negative x))
  | none => .flawed .malformed .malformed none

/-- The leaf for an integer that fits into 64 bits. -/
def intLeaf (negative : Bool) (n : Nat) : Draft :=
  if !negative then .num (.int n)
  else if n = 0 ∨ twoTo 63 < n then .num (.float (-Float.ofNat n))
  else .num (.int (-Int.ofNat n))

/-- A number that ends too early or goes on wrongly. -/
def brokenNumber (rest : List Char) : Draft :=
  .brokenLeaf (if rest.isEmpty then .unfinished else .malformed) .malformed

/-- The exponent part of a number with a fraction or an overlong integer, after its `e`. -/
def readExponentPart (negative : Bool) (significand : Nat) (exponent : Int) (cs : List Char) :
    Draft × Option (List Char) :=
  let (minus, cs) := Decimal.readSign cs
  match Decimal.readDigits (twoTo 31) 0 0 cs with
  | (0, _, rest) => (brokenNumber rest, none)
  | (_, n, rest) =>
      (floatLeaf negative significand (exponent + Binary64.signed minus n), some rest)

/-- The end of a number with a fraction or an overlong integer. -/
def readFloatEnd (negative : Bool) (significand : Nat) (exponent : Int) (cs : List Char) :
    Draft × Option (List Char) :=
  match cs with
  | 'e' :: rest => readExponentPart negative significand exponent rest
  | 'E' :: rest => readExponentPart negative significand exponent rest
  | rest => (floatLeaf negative significand exponent, some rest)

/-- A number after its sign. -/
def readNumber (negative : Bool) (cs : List Char) : Draft × Option (List Char) :=
  let afterWhole (significand dropped : Nat) (rest : List Char) : Draft × Option (List Char) :=
    match rest with
    | '.' :: fraction =>
        match readBounded significand 0 fraction with
        | (value, unused, rest) =>
            let count := (fraction.takeWhile fun c => (Decimal.digit? c).isSome).length
            if count = 0 then (brokenNumber rest, none)
            else
              readFloatEnd negative value (Int.ofNat dropped - Int.ofNat (count - unused)) rest
    | 'e' :: _ => readFloatEnd negative significand dropped rest
    | 'E' :: _ => readFloatEnd negative significand dropped rest
    | _ =>
        if dropped = 0 then (intLeaf negative significand, some rest)
        else (floatLeaf negative significand dropped, some rest)
  match cs with
  | [] => (brokenNumber [], none)
  | '0' :: rest =>
      match rest with
      | c :: _ =>
          if (Decimal.digit? c).isSome then (Draft.broken .malformed, none) else afterWhole 0 0 rest
      | [] => afterWhole 0 0 []
  | c :: rest =>
      if (Decimal.digit? c).isSome then
        let (significand, dropped, rest) := readBounded 0 0 (c :: rest)
        afterWhole significand dropped rest
      else (brokenNumber (c :: rest), none)

/-- The value of a hexadecimal digit. -/
def hexValue? (c : Char) : Option Nat :=
  if '0' ≤ c ∧ c ≤ '9' then some (c.toNat - '0'.toNat)
  else if 'a' ≤ c ∧ c ≤ 'f' then some (c.toNat - 'a'.toNat + 10)
  else if 'A' ≤ c ∧ c ≤ 'F' then some (c.toNat - 'A'.toNat + 10)
  else none

/-- Four hexadecimal digits. -/
def readHex4 (cs : List Char) : Except ReadError (Nat × List Char) :=
  match cs with
  | a :: b :: c :: d :: rest =>
      match hexValue? a, hexValue? b, hexValue? c, hexValue? d with
      | some a, some b, some c, some d => .ok (((a * 16 + b) * 16 + c) * 16 + d, rest)
      | _, _, _, _ => .error .malformed
  | short =>
      if total (short.map Char.utf8Size) < 4 then .error .unfinished else .error .malformed

/-- What the quoted text so far amounts to: its characters in reverse, or the error of using it. -/
abbrev Quoted := Except ReadError (List Char)

/-- Adds a character. -/
def Quoted.push (q : Quoted) (c : Char) : Quoted :=
  q.map (c :: ·)

/-- Notes that the text cannot be used; the first reason counts. -/
def Quoted.spoil (q : Quoted) (error : ReadError) : Quoted :=
  q.bind fun _ => .error error

/-- The low half that must follow the high half of an escaped character. -/
def lowHalf (high : Nat) (cs : List Char) : Except ReadError Char :=
  match cs with
  | [] => .error .unfinished
  | '\\' :: [] => .error .unfinished
  | '\\' :: 'u' :: rest => do
      let (low, _) ← readHex4 rest
      if 0xDC00 ≤ low ∧ low ≤ 0xDFFF then
        .ok (Char.ofNat (0x10000 + (high - 0xD800) * 0x400 + (low - 0xDC00)))
      else .error .malformed
  | _ => .error .malformed

/-- The character of an escape with one letter. -/
def simpleEscape? (c : Char) : Option Char :=
  match c with
  | '"' => some '"'
  | '\\' => some '\\'
  | '/' => some '/'
  | 'b' => some (Char.ofNat 8)
  | 'f' => some (Char.ofNat 12)
  | 'n' => some '\n'
  | 'r' => some '\r'
  | 't' => some '\t'
  | _ => none

/-- A quoted text after its opening quote: what it amounts to and the rest, or the error of
skipping it.  `fuel` bounds the number of characters. -/
def readQuoted : (fuel : Nat) → Quoted → List Char → Quoted × Except ReadError (List Char)
  | 0, q, _ => (q.spoil .unfinished, .error .unfinished)
  | _ + 1, q, [] => (q.spoil .unfinished, .error .unfinished)
  | fuel + 1, q, c :: cs =>
      if c = '"' then (q, .ok cs)
      else if c = '\\' then
        match cs with
        | [] => (q.spoil .unfinished, .error .unfinished)
        | 'u' :: rest =>
            match readHex4 rest with
            | .error e => (q.spoil e, .error e)
            | .ok (code, rest) =>
                if 0xDC00 ≤ code ∧ code ≤ 0xDFFF then readQuoted fuel (q.spoil .malformed) rest
                else if 0xD800 ≤ code ∧ code ≤ 0xDBFF then
                  match lowHalf code rest with
                  | .ok c => readQuoted fuel (q.push c) (rest.drop 6)
                  | .error e => readQuoted fuel (q.spoil e) rest
                else readQuoted fuel (q.push (Char.ofNat code)) rest
        | e :: rest =>
            match simpleEscape? e with
            | some c => readQuoted fuel (q.push c) rest
            | none => (q.spoil .malformed, .error .malformed)
      else if c.toNat < 0x20 then (q.spoil .malformed, .error .malformed)
      else readQuoted fuel (q.push c) cs

/-- A quoted text as a leaf. -/
def quotedLeaf (read : Quoted × Except ReadError (List Char)) : Draft × Option (List Char) :=
  match read with
  | (.ok cs, .ok rest) => (.str (String.ofList cs.reverse), some rest)
  | (.error e, .ok rest) => (.flawed e e none, some rest)
  | (.error e, .error skipped) => (.flawed e e (some skipped), none)
  | (.ok _, .error skipped) => (Draft.broken skipped, none)

/-- The rest of a word of which the first letter has been read. -/
def readWord (leaf : Draft) : (word cs : List Char) → Draft × Option (List Char)
  | [], cs => (leaf, some cs)
  | _ :: _, [] => (.brokenLeaf .unfinished .unfinished, none)
  | w :: word, c :: cs => if w = c then readWord leaf word cs else (Draft.broken .malformed, none)

/-- The error for a text that stops short or goes on wrongly. -/
def stopError (cs : List Char) : ReadError :=
  if cs.isEmpty then .unfinished else .malformed

mutual

/-- Reads one value; there is no rest after an error that cannot be skipped. -/
def readValue : (fuel : Nat) → List Char → Draft × Option (List Char)
  | 0, _ => (Draft.broken .unfinished, none)
  | fuel + 1, cs =>
      match skipBlanks cs with
      | [] => (Draft.broken .unfinished, none)
      | c :: rest =>
          if c = '"' then quotedLeaf (readQuoted fuel (.ok []) rest)
          else if c = '[' then
            match skipBlanks rest with
            | ']' :: rest => (.arr [] .closed, some rest)
            | [] => (.arr [] (.broken .unfinished), none)
            | rest =>
                let (items, ending, rest) := readItems fuel rest
                (.arr items ending, rest)
          else if c = '\x7b' then
            match skipBlanks rest with
            | '\x7d' :: rest => (.obj [] .closed, some rest)
            | '"' :: rest =>
                let (fields, ending, rest) := readFields fuel rest
                (.obj fields ending, rest)
            | [] => (.obj [] (.broken .unfinished), none)
            | rest => (.obj [] (.nameless (readValue fuel rest).1.refuse), none)
          else if c = '-' then readNumber true rest
          else if (Decimal.digit? c).isSome then readNumber false (c :: rest)
          else if c = 'n' then readWord .null "ull".toList rest
          else if c = 't' then readWord (.bool true) "rue".toList rest
          else if c = 'f' then readWord (.bool false) "alse".toList rest
          else (Draft.broken .malformed, none)
termination_by structural fuel => fuel

/-- Reads the items of an array up to its end. -/
def readItems : (fuel : Nat) → List Char → List Draft × Ending × Option (List Char)
  | 0, _ => ([], .broken .unfinished, none)
  | fuel + 1, cs =>
      match readValue fuel cs with
      | (item, none) => ([item], .broken .malformed, none)
      | (item, some rest) =>
          match skipBlanks rest with
          | ']' :: rest => ([item], .closed, some rest)
          | ',' :: rest =>
              match skipBlanks rest with
              | [] => ([item], .brokenAfterComma .unfinished, none)
              | ']' :: _ => ([item], .brokenAfterComma .malformed, none)
              | rest =>
                  let (items, ending, rest) := readItems fuel rest
                  (item :: items, ending, rest)
          | rest => ([item], .broken (stopError rest), none)
termination_by structural fuel => fuel

/-- Reads the fields of an object up to its end, from after the quote that opens a name. -/
def readFields : (fuel : Nat) → List Char →
    List (Option String × Draft) × Ending × Option (List Char)
  | 0, _ => ([], .broken .unfinished, none)
  | fuel + 1, cs =>
      match readQuoted fuel (.ok []) cs with
      | (.error .malformed, .error e) => ([(none, Draft.broken e)], .broken .malformed, none)
      | (_, .error e) => ([], .broken e, none)
      | (q, .ok rest) =>
          let name := q.toOption.map fun cs => String.ofList cs.reverse
          match skipBlanks rest with
          | ':' :: rest =>
              match readValue fuel rest with
              | (value, none) => ([(name, value)], .broken .malformed, none)
              | (value, some rest) =>
                  match skipBlanks rest with
                  | '\x7d' :: rest => ([(name, value)], .closed, some rest)
                  | ',' :: rest =>
                      match skipBlanks rest with
                      | '"' :: rest =>
                          let (fields, ending, rest) := readFields fuel rest
                          let ending := if fields.isEmpty then ending.afterComma else ending
                          ((name, value) :: fields, ending, rest)
                      | rest => ([(name, value)], .brokenAfterComma (stopError rest), none)
                  | rest => ([(name, value)], .broken (stopError rest), none)
          | rest => ([(name, Draft.broken (stopError rest))], .broken .malformed, none)
termination_by structural fuel => fuel

end

/-- A whole text: its draft, and whether only blanks follow the value.  A character takes two steps
at most. -/
def draftOf (text : String) : Draft × Bool :=
  let cs := text.toList
  match readValue (2 * cs.length + 2) cs with
  | (draft, some rest) => (draft, (skipBlanks rest).isEmpty)
  | (draft, none) => (draft, true)

/-- The error with which an array or object ends. -/
def Ending.error? : Ending → Option ReadError
  | .closed => none
  | .broken error => some error
  | .brokenAfterComma error => some error
  | .nameless _ => some .malformed

namespace Draft

mutual

/-- The first error that one meets when one skips a value. -/
def skipError? : Draft → Option ReadError
  | .flawed _ _ skipped => skipped
  | .arr items ending => (itemsSkipError? items).or ending.error?
  | .obj fields ending => (fieldsSkipError? fields).or ending.error?
  | _ => none
termination_by structural d => d

/-- The first error that one meets when one skips items. -/
def itemsSkipError? : List Draft → Option ReadError
  | [] => none
  | item :: items => (skipError? item).or (itemsSkipError? items)
termination_by structural d => d

/-- The first error that one meets when one skips fields. -/
def fieldsSkipError? : List (Option String × Draft) → Option ReadError
  | [] => none
  | (_, value) :: fields => (skipError? value).or (fieldsSkipError? fields)
termination_by structural d => d

end

end Draft

end Json

end UiDoc
