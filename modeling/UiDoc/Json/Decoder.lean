import UiDoc.Json.Draft

/-!
# Decoding drafts

A decoder turns a draft into a value of a type, or reports the error that comes first in the order
of the text.  It runs in one of two modes.  While a text is being read, nesting is limited and a
record that takes its fields from an array stops at the first item too many; in a draft that has
been read as a whole, neither the depth nor the rest of the text matters any more.
-/

namespace UiDoc.Json

/-- How the draft of a value came about. -/
inductive Mode where
  /-- From the text that is being read, inside so many arrays and objects. -/
  | text (depth : Nat)
  /-- From a value or a part of the text that is known as a whole. -/
  | whole
  deriving DecidableEq, Repr

/-- How many arrays and objects may be nested in a text. -/
def depthLimit : Nat := 127

/-- Steps into an array or an object. -/
def Mode.enter : Mode → Except ReadError Mode
  | .text depth => if depth < depthLimit then .ok (.text (depth + 1)) else .error .malformed
  | .whole => .ok .whole

/-- Decodes one draft. -/
abbrev Decoder (α : Type) := Mode → Draft → Except ReadError α

namespace Draft

/-- Fails with the error at the end of an array or object, if there is one. -/
def closeWith (ending : Ending) : Except ReadError Unit :=
  match ending.error? with
  | some error => .error error
  | none => .ok ()

mutual

/-- How deeply arrays and objects are nested. -/
def height : Draft → Nat
  | .arr items _ => itemsHeight items + 1
  | .obj fields _ => fieldsHeight fields + 1
  | .null | .bool _ | .num _ | .str _ | .flawed _ _ _ => 0
termination_by structural d => d

/-- How deeply the highest of some items is nested. -/
def itemsHeight : List Draft → Nat
  | [] => 0
  | item :: items => max item.height (itemsHeight items)
termination_by structural d => d

/-- How deeply the highest of some fields is nested. -/
def fieldsHeight : List (Option String × Draft) → Nat
  | [] => 0
  | (_, value) :: fields => max value.height (fieldsHeight fields)
termination_by structural d => d

end

/-- A name of an object that is used. -/
def useName (name : Option String) : Except ReadError String :=
  match name with
  | some name => .ok name
  | none => .error .malformed

mutual

/-- Decodes any value. -/
def toJson (mode : Mode) : Draft → Except ReadError Json
  | .null => .ok .null
  | .bool b => .ok (.bool b)
  | .num n => .ok (.num n)
  | .str s => .ok (.str s)
  | .flawed used _ _ => .error used
  | .arr items ending => do
      let items ← toItems (← mode.enter) items
      closeWith ending
      .ok (.arr items)
  | .obj fields ending => do
      let fields ← toFields (← mode.enter) fields
      closeWith ending
      .ok (.obj (Record.ofFields fields))
termination_by structural d => d

/-- Decodes items. -/
def toItems (mode : Mode) : List Draft → Except ReadError (List Json)
  | [] => .ok []
  | item :: items => do
      let v ← toJson mode item
      let vs ← toItems mode items
      .ok (v :: vs)
termination_by structural d => d

/-- Decodes fields, with repeated names. -/
def toFields (mode : Mode) :
    List (Option String × Draft) → Except ReadError (List (String × Json))
  | [] => .ok []
  | (name, value) :: fields => do
      let name ← useName name
      let v ← toJson mode value
      let rest ← toFields mode fields
      .ok ((name, v) :: rest)
termination_by structural d => d

end

mutual

/-- The draft of a value. -/
def ofJson : Json → Draft
  | .null => .null
  | .bool b => .bool b
  | .num n => .num n
  | .str s => .str s
  | .arr items => .arr (ofItems items) .closed
  | .obj fields => .obj (ofFields fields) .closed
termination_by structural v => v

/-- The drafts of items. -/
def ofItems : List Json → List Draft
  | [] => []
  | v :: vs => ofJson v :: ofItems vs
termination_by structural v => v

/-- The drafts of fields. -/
def ofFields : List (String × Json) → List (Option String × Draft)
  | [] => []
  | (name, v) :: rest => (some name, ofJson v) :: ofFields rest
termination_by structural v => v

end

end Draft

namespace Decoder

variable {α : Type}

/-- Any value. -/
def value : Decoder Json := Draft.toJson

/-- A text. -/
def string : Decoder String := fun _ d =>
  match d with
  | .str s => .ok s
  | d => .error d.refuse

/-- A truth value. -/
def bool : Decoder Bool := fun _ d =>
  match d with
  | .bool b => .ok b
  | d => .error d.refuse

/-- A natural number of 64 bits. -/
def count : Decoder Nat := fun _ d =>
  match d with
  | .num (.int (.ofNat n)) => if n < twoTo 64 then .ok n else .error .mismatch
  | d => .error d.refuse

/-- A value, or `null`. -/
def nullable (decode : Decoder α) : Decoder (Option α) := fun mode d =>
  match d with
  | .null => .ok none
  | d => (decode mode d).map some

/-- Applies a decoder to items in order. -/
def each (decode : Draft → Except ReadError α) : List Draft → Except ReadError (List α)
  | [] => .ok []
  | item :: items => do
      let x ← decode item
      let xs ← each decode items
      .ok (x :: xs)

/-- A list. -/
def list (decode : Decoder α) : Decoder (List α) := fun mode d =>
  match d with
  | .arr items ending => do
      let mode ← mode.enter
      let xs ← each (decode mode) items
      Draft.closeWith ending
      .ok xs
  | d => .error d.refuse

/-- Applies a decoder to the values of fields in order. -/
def eachField (decode : Draft → Except ReadError α) :
    List (Option String × Draft) → Except ReadError (List (String × α))
  | [] => .ok []
  | (name, value) :: fields => do
      let name ← Draft.useName name
      let x ← decode value
      let xs ← eachField decode fields
      .ok ((name, x) :: xs)

/-- Named values; of a repeated name the last value counts, at the first place. -/
def record (decode : Decoder α) : Decoder (Record α) := fun mode d =>
  match d with
  | .obj fields ending => do
      let mode ← mode.enter
      let xs ← eachField (decode mode) fields
      Draft.closeWith ending
      .ok (Record.ofFields xs)
  | d => .error d.refuse

/-- Any value, as a record. -/
def object : Decoder (Record Json) := record value

/-- Skips a value. -/
def skip : Decoder Unit := fun _ d =>
  match d.skipError? with
  | some error => .error error
  | none => .ok ()

/-- Takes the whole value first and decodes it then, so that an error of its text comes before one
of its shape. -/
def buffered (decode : Draft → Except ReadError α) : Decoder α := fun mode d =>
  match mode with
  | .whole => decode d
  | .text _ => do
      let _ ← d.toJson mode
      decode d

/-- The result of the first of two ways to read a draft that works. -/
def orElse (first second : Except ReadError α) : Except ReadError α :=
  match first with
  | .ok x => .ok x
  | .error _ => second

/-- One of several words.  A word may also stand as the name of a single field with value `null`.
While a text is read, a value of another kind counts as malformed. -/
def word (words : List (String × α)) : Decoder α := fun mode d =>
  let choose (name : String) : Except ReadError α :=
    match words.lookup name with
    | some x => .ok x
    | none => .error .mismatch
  match d, mode with
  | .str s, _ => choose s
  | .obj fields ending, .text _ => do
      let _ ← mode.enter
      match fields with
      | [] =>
          match ending with
          | .closed => .error .malformed
          | .broken error | .brokenAfterComma error | .nameless error => .error error
      | (name, value) :: rest =>
          let x ← choose (← Draft.useName name)
          match value with
          | .null =>
              match rest, ending with
              | [], .closed => .ok x
              | [], .broken error => .error error
              | _, _ => .error .malformed
          | d => .error d.refuse
  | .obj [(name, .null)] _, .whole => do choose (← Draft.useName name)
  | .flawed _ asWord _, _ => .error asWord
  | _, .text _ => .error .malformed
  | _, .whole => .error .mismatch

/-- A field of a record type: its names, whether it has to be there, and how it is decoded and
set. -/
structure Field (α : Type) where
  name : String
  /-- A second name. -/
  alternative : Option String := none
  required : Bool := false
  read : Decoder (α → α)

namespace Field

variable {β : Type}

/-- A field that may be missing. -/
def optional (name : String) (decode : Decoder β) (set : β → α → α) : Field α where
  name
  read mode d := (decode mode d).map set

/-- A field that has to be there. -/
def mandatory (name : String) (decode : Decoder β) (set : β → α → α) : Field α where
  name
  required := true
  read mode d := (decode mode d).map set

/-- Whether a field has a name. -/
def hasName (field : Field α) (name : String) : Bool :=
  field.name == name || field.alternative == some name

end Field

/-- How a record type is decoded. -/
structure Layout (α : Type) where
  /-- The record without any fields set. -/
  start : α
  /-- The fields, in the order in which an array lists them. -/
  fields : List (Field α)
  /-- Takes in a field with another name.  If there is nothing to take it in, such a field is
  skipped, and the record may also be written as an array. -/
  other : Option (String → Decoder (α → α)) := none

namespace Layout

/-- Decodes named fields in the order of the text; `seen` are the names of those that are set. -/
def named (layout : Layout α) (mode : Mode) :
    (seen : List String) → α → List (Option String × Draft) → Except ReadError (List String × α)
  | seen, x, [] => .ok (seen, x)
  | seen, x, (name, value) :: rest => do
      let name ← Draft.useName name
      match layout.fields.find? (·.hasName name), layout.other with
      | some field, _ =>
          if field.name ∈ seen then .error .mismatch
          else
            let set ← field.read mode value
            layout.named mode (field.name :: seen) (set x) rest
      | none, some other =>
          let set ← other name mode value
          layout.named mode seen (set x) rest
      | none, none => do
          skip mode value
          layout.named mode seen x rest

/-- The error of an item too many. -/
def surplusError : Mode → ReadError
  | .text _ => .malformed
  | .whole => .mismatch

/-- Decodes the fields of an array in their order; an item too many is an error. -/
def positional (mode : Mode) (ending : Ending) :
    List (Field α) → α → List Draft → Except ReadError (List (Field α) × α)
  | fields, x, [] =>
      match ending with
      | .closed => .ok (fields, x)
      | .broken error => .error error
      | .brokenAfterComma error =>
          .error (if fields.isEmpty then surplusError mode else error)
      | .nameless _ => .error .malformed
  | field :: fields, x, item :: items => do
      let set ← field.read mode item
      positional mode ending fields (set x) items
  | [], _, _ :: _ => .error (surplusError mode)

/-- Decodes a record from an object or from an array. -/
def decoder (layout : Layout α) : Decoder α := fun mode d =>
  match d, layout.other with
  | .obj fields ending, _ => do
      let mode ← mode.enter
      let (seen, x) ← layout.named mode [] layout.start fields
      Draft.closeWith ending
      if layout.fields.all fun field => !field.required || seen.contains field.name then .ok x
      else .error .mismatch
  | .arr items ending, none => do
      let mode ← mode.enter
      let (missing, x) ← positional mode ending layout.fields layout.start items
      if missing.any (·.required) then .error .mismatch else .ok x
  | d, _ => .error d.refuse

end Layout

end Decoder

/-- Decodes a value that is at hand. -/
def decode {α : Type} (decoder : Decoder α) (v : Json) : Except ReadError α :=
  decoder .whole (Draft.ofJson v)

/-- Decodes a text. -/
def decodeText {α : Type} (decoder : Decoder α) (text : String) : Except ReadError α :=
  let (draft, ended) := draftOf text
  match decoder (.text 0) draft with
  | .ok x => if ended then .ok x else .error .malformed
  | .error e => .error e

/-- Reads any value. -/
def parse (text : String) : Except ReadError Json :=
  decodeText Decoder.value text

end UiDoc.Json
