import UiDoc.Proofs.Path.Accesses

/-!
# Segments written down and read again

A segment is written behind a point, between brackets, or between quotes between brackets, whichever
of these fits it.  The forms may be mixed in any way: the segments of the text are the segments that
were written, none of them merged with its neighbour, split or lost.
-/

namespace UiDoc.Path

/-- A form in which a segment can be written. -/
inductive Form where
  | point
  | bracket
  | quoted (mark : Char)
  deriving DecidableEq, Repr

/-- A text has no white space at its ends. -/
def Tight (text : List Char) : Prop :=
  (∀ c ∈ text.head?, Text.isBlank c = false) ∧ ∀ c ∈ text.getLast?, Text.isBlank c = false

instance (text : List Char) : Decidable (Tight text) :=
  @instDecidableAnd _ _ (Option.decidableForallMem text.head?)
    (Option.decidableForallMem text.getLast?)

theorem Tight.trim {text : List Char} (tight : Tight text) : Text.trim text = text :=
  Text.trim_of_ends tight.1 tight.2

namespace Form

/-- The access that writes a segment. -/
def access : Form → String → Access
  | point, segment => .point segment.toList
  | bracket, segment => .bracket segment.toList
  | quoted mark, segment => .quoted mark segment.toList

/-- The form fits the segment: nothing in the segment ends it too early, and nothing is trimmed. -/
def Fits : Form → String → Prop
  | point, segment => segment ≠ "" ∧ ∀ c ∈ segment.toList, c ≠ '.' ∧ c ≠ '['
  | bracket, segment =>
      Tight segment.toList ∧ (∀ c ∈ segment.toList, c ≠ ']') ∧
        ∀ c ∈ segment.toList.head?, c ∉ ['"', '\'']
  | quoted mark, segment =>
      Tight segment.toList ∧ mark ∈ ['"', '\''] ∧ ∀ c ∈ segment.toList, c ≠ mark

instance : (form : Form) → (segment : String) → Decidable (form.Fits segment)
  | point, segment => @instDecidableAnd _ _ inferInstance (List.decidableBAll _ segment.toList)
  | bracket, segment => inferInstanceAs
      (Decidable (Tight segment.toList ∧ (Access.bracket segment.toList).Readable))
  | quoted mark, segment => inferInstanceAs
      (Decidable (Tight segment.toList ∧ (Access.quoted mark segment.toList).Readable))

variable {form : Form} {segment : String}

theorem Fits.readable (fits : form.Fits segment) : (form.access segment).Readable := by
  cases form with
  | point => exact ⟨by simpa using fits.1, fits.2⟩
  | bracket | quoted => exact fits.2

/-- What is read from the access is what was written. -/
theorem Fits.segment_access (fits : form.Fits segment) :
    (form.access segment).segment = segment := by
  cases form with
  | point => exact String.ofList_toList
  | bracket | quoted =>
      simp only [access, Access.segment]
      rw [fits.1.trim, String.ofList_toList]

end Form

/-- A segment with a form that fits it. -/
structure Written where
  segment : String
  form : Form
  fits : form.Fits segment

namespace Written

/-- The access that writes the segment. -/
def access (w : Written) : Access :=
  w.form.access w.segment

/-- The path that writes segments one after the other. -/
def path (parts : List Written) : String :=
  String.ofList (accessChars (parts.map access))

theorem readable (parts : List Written) : ∀ a ∈ parts.map access, a.Readable := by
  intro a member
  obtain ⟨w, -, rfl⟩ := List.mem_map.1 member
  exact w.fits.readable

theorem map_segment (parts : List Written) :
    (parts.map access).map Access.segment = parts.map segment := by
  rw [List.map_map]
  exact List.map_congr_left fun w _ => w.fits.segment_access

/-- What stands behind the point of the first access. -/
theorem behindPoint_eq {accesses : List Access} {rest : List Char}
    (starts : accessChars accesses = '.' :: rest) : behindPoint accesses = rest := by
  match accesses with
  | [] => cases starts
  | .point name :: accesses => exact (List.cons.inj starts).2
  | .bracket _ :: _ | .quoted _ _ :: _ => exact absurd (List.cons.inj starts).1 (by decide)

end Written

/-- The segments of a path are those that were written, also without the point that it starts
with. -/
theorem segments_path (parts : List Written) :
    segments (Written.path parts) = parts.map Written.segment ∧
      ∀ rest, Written.path parts = "." ++ rest → segments rest = parts.map Written.segment := by
  have readable := Written.readable parts
  refine ⟨?_, fun rest starts => ?_⟩
  · rw [segments, Written.path, String.toList_ofList, segmentsFrom_accessChars readable,
      Written.map_segment]
    rfl
  · have behind : behindPoint (parts.map Written.access) = rest.toList := by
      apply Written.behindPoint_eq
      have same := congrArg String.toList starts
      rwa [Written.path, String.toList_ofList, String.toList_append] at same
    rw [segments, ← behind, segmentsFrom_behindPoint readable, Written.map_segment]

/-- All forms beside each other: keys with points, brackets, the other quote or nothing in them. -/
theorem segments_path_mixed :
    let parts : List Written := [⟨"a]", .point, by decide⟩,
      ⟨"it's", .quoted '"', by decide⟩, ⟨"", .bracket, by decide⟩,
      ⟨"b.[c] \"", .quoted '\'', by decide⟩, ⟨"[d.'e", .bracket, by decide⟩,
      ⟨" f ", .point, by decide⟩, ⟨"0", .bracket, by decide⟩]
    Written.path parts = "." ++ "a][\"it's\"][]['b.[c] \"'][[d.'e]. f [0]" ∧
      segments "a][\"it's\"][]['b.[c] \"'][[d.'e]. f [0]" =
        ["a]", "it's", "", "b.[c] \"", "[d.'e", " f ", "0"] := by
  intro parts
  have path : Written.path parts = "." ++ "a][\"it's\"][]['b.[c] \"'][[d.'e]. f [0]" := by decide
  exact ⟨path, (segments_path parts).2 _ path⟩

end UiDoc.Path
