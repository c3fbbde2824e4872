import UiDoc.Proofs.Decimal.Shape
import UiDoc.Proofs.Document.RoundTrip
import UiDoc.Proofs.Keys
import UiDoc.Proofs.Path.Accesses
import UiDoc.Validation.Issue

/-!
# Places as paths

The text of a place is a path behind the sign of the root.  In the encoding of a document the path
leads to the encoding of what stands at the place.
-/

namespace UiDoc

open Json (field? textField recordField)
open Decimal (natText toList_natText isDigit_of_mem_natText)

/-! ## Texts of places -/

namespace PlaceStep

/-- The access that a step is written as. -/
def access : PlaceStep → Path.Access
  | field name => .point name.toList
  | item index => .bracket (natText index).toList

/-- The segment that a step is written as. -/
def segment : PlaceStep → String
  | field name => name
  | item index => natText index

theorem toList_text (s : PlaceStep) : s.text.toList = s.access.chars := by
  cases s with
  | field name => exact String.toList_append
  | item index => simp [text, access, Path.Access.chars]

theorem not_blank_of_mem_natText {c : Char} {n : Nat} (member : c ∈ (natText n).toList) :
    Text.isBlank c = false := by
  have known : ∀ c ∈ Text.blanks, c.isDigit = false := Text.forall_of_all (by decide +kernel)
  rw [Bool.eq_false_iff]
  intro blank
  have digit := isDigit_of_mem_natText member
  rw [known c (Text.mem_blanks blank)] at digit
  cases digit

theorem readable_item (index : Nat) : (item index).access.Readable := by
  have digit {c : Char} (member : c ∈ (natText index).toList) := isDigit_of_mem_natText member
  refine ⟨fun c member => ?_, fun c first mark => ?_⟩
  · rintro rfl
    cases digit member
  · have isDigit := digit (List.mem_of_head? first)
    rcases List.mem_cons.1 mark with rfl | mark
    · cases isDigit
    · rw [List.mem_singleton.1 mark] at isDigit
      cases isDigit

theorem segment_access (s : PlaceStep) : s.access.segment = s.segment := by
  cases s with
  | field name => exact String.ofList_toList
  | item index =>
      have trimmed : Text.trim (natText index).toList = (natText index).toList :=
        Text.trim_of_not_blank fun _ => not_blank_of_mem_natText
      rw [access, Path.Access.segment, trimmed, String.ofList_toList]
      rfl

end PlaceStep

namespace Place

/-- The path from the root of a document to a place. -/
def path (place : Place) : String :=
  String.ofList (Path.accessChars (place.steps.map PlaceStep.access))

/-- The segments of the path. -/
def segments (place : Place) : List String :=
  place.steps.map PlaceStep.segment

theorem text_eq (place : Place) : place.text = "$" ++ place.path := by
  have steps (list : List PlaceStep) :
      (String.join (list.map PlaceStep.text)).toList =
        Path.accessChars (list.map PlaceStep.access) := by
    induction list with
    | nil => rfl
    | cons s rest ih => simp [ih, PlaceStep.toList_text]
  rw [text, path, ← steps, String.ofList_toList]

/-- Every step of the place can be read from its text. -/
def Readable (place : Place) : Prop :=
  ∀ s ∈ place.steps, s.access.Readable

theorem Readable.segments_eq {place : Place} (readable : place.Readable) :
    Path.segments place.path = place.segments := by
  have each : ∀ a ∈ place.steps.map PlaceStep.access, a.Readable := by
    intro a member
    obtain ⟨s, known, rfl⟩ := List.mem_map.1 member
    exact readable s known
  rw [Path.segments, path, String.toList_ofList, Path.segmentsFrom_accessChars each, List.map_map]
  exact List.map_congr_left fun s _ => s.segment_access

/-- Places with the same text have the same segments. -/
theorem segments_congr {place other : Place} (readable : place.Readable)
    (readableOther : other.Readable) (same : place.text = other.text) :
    place.segments = other.segments := by
  rw [text_eq, text_eq] at same
  have paths : place.path = other.path := by simpa using same
  rw [← readable.segments_eq, ← readableOther.segments_eq, paths]

@[simp] theorem segments_field (place : Place) (name : String) :
    (place.field name).segments = place.segments ++ [name] :=
  List.map_append

@[simp] theorem segments_item (place : Place) (index : Nat) :
    (place.item index).segments = place.segments ++ [natText index] :=
  List.map_append

end Place

/-! ## Paths in encodings -/

/-- The path of a place leads from a value to another one. -/
structure Place.Leads (root : Json) (place : Place) (v : Json) : Prop where
  readable : place.Readable
  found : Path.follow (some root) place.segments = some v

namespace Place.Leads

variable {root v : Json} {place : Place}

theorem walk (leads : place.Leads root v) : Path.walk root place.path = some v := by
  rw [Path.walk, Path.walkSegments_eq, leads.readable.segments_eq]
  exact leads.found

theorem start (v : Json) : Place.root.Leads v v :=
  ⟨nofun, rfl⟩

theorem next (leads : place.Leads root v) {s : PlaceStep} {w : Json} (readable : s.access.Readable)
    (step : Path.step v s.segment = some w) : Leads root ⟨place.steps ++ [s]⟩ w where
  readable := List.forall_mem_append.2 ⟨leads.readable, List.forall_mem_singleton.2 readable⟩
  found := by
    have parts : Place.segments ⟨place.steps ++ [s]⟩ = place.segments ++ [s.segment] :=
      List.map_append
    rw [parts, Path.follow_append, leads.found]
    exact step

/-- A field leads to its value. -/
theorem field {fields : Record Json} {name : String} (leads : place.Leads root (.obj fields))
    (readable : (Path.Access.point name.toList).Readable)
    (found : Record.find? fields name = some v) : (place.field name).Leads root v :=
  leads.next (s := .field name) readable found

/-- The number of an item leads to the item. -/
theorem item {items : List Json} {index : Nat} (leads : place.Leads root (.arr items))
    (small : index < 2 ^ 64) (found : items[index]? = some v) :
    (place.item index).Leads root v := by
  refine leads.next (s := .item index) (PlaceStep.readable_item index) ?_
  have differs : natText index ≠ "length" := by
    intro same
    have letter : 'l' ∈ (natText index).toList := by
      rw [same]
      decide
    cases isDigit_of_mem_natText letter
  have read : Decimal.readCount (natText index).toList = some index := by
    rw [toList_natText, Decimal.readCount_toDigits small]
  simp only [PlaceStep.segment, Path.step, if_neg differs, Path.index?, read, Option.bind_some,
    found]

end Place.Leads

/-! ## Fields of encodings -/

namespace Record

variable {α : Type}

theorem find?_field? (key : String) (encode : α → Json) (o : Option α) (name : String) :
    find? (field? key encode o) name = if name = key then o.map encode else none := by
  cases o <;> simp [field?]

theorem find?_textField {key name : String} (differs : name ≠ key) (s : String) :
    find? (textField key s) name = none := by
  unfold textField
  split <;> simp [differs]

theorem find?_recordField {key name : String} (differs : name ≠ key) (encode : α → Json)
    (r : Record α) : find? (recordField key encode r) name = none := by
  unfold recordField
  split <;> simp [differs]

end Record

open Record (find? find?_append find?_field? find?_textField find?_recordField)

/-- A component is encoded with its conditional and its children under their names. -/
theorem Component.exists_fields (c : Component) :
    ∃ fields, c.toJson = .obj fields ∧
      find? fields "conditional" = c.conditional.map Conditional.toJson ∧
      find? fields "children" = c.children.map Content.toJson := by
  obtain ⟨id, kind, props, className, style, bindings, dataBinding, events, conditional, loop,
    children⟩ := c
  refine ⟨_, by rw [Component.toJson], ?_, ?_⟩ <;>
    simp [find?_append, find?_field?, find?_textField, find?_recordField, conditionalFields_eq,
      childrenFields_eq]

/-- A conditional is encoded with its branches under their names. -/
theorem Conditional.exists_fields (k : Conditional) :
    ∃ fields, k.toJson = .obj fields ∧
      (∀ content, k.yes = .content content → find? fields "then" = some content.toJson) ∧
      ∀ content, k.no = .content content → find? fields "else" = some content.toJson := by
  obtain ⟨condition, yes, no⟩ := k
  refine ⟨_, by rw [Conditional.toJson], ?_, ?_⟩
  · rintro content rfl
    simp [branchFields]
  · rintro content rfl
    have other : find? (branchFields "then" yes) "else" = none := by
      cases yes <;> simp [branchFields]
    simp [find?_append, other, branchFields]

end UiDoc
