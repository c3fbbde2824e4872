import UiDoc.Proofs.Path

/-!
# Paths as a name and accesses

A path is written as a first name and accesses behind it: names behind points, texts between
brackets, and texts between quotes between brackets.  Its segments are those of the accesses, and
they are what the path follows from the value of the first name on.
-/

namespace UiDoc.Path

/-- An access as it is written. -/
inductive Access where
  | point (name : List Char)
  | bracket (text : List Char)
  | quoted (mark : Char) (key : List Char)

namespace Access

/-- The text of an access. -/
def chars : Access → List Char
  | point name => '.' :: name
  | bracket text => '[' :: (text ++ [']'])
  | quoted mark key => '[' :: mark :: (key ++ [mark, ']'])

theorem chars_quoted (mark : Char) (key : List Char) :
    (quoted mark key).chars = '[' :: ((mark :: (key ++ [mark])) ++ [']']) := by
  simp [chars]

/-- The segment of an access. -/
def segment : Access → String
  | point name => String.ofList name
  | bracket text => String.ofList (Text.trim text)
  | quoted _ key => String.ofList (Text.trim key)

/-- The access ends where it is meant to, and gives a segment. -/
def Readable : Access → Prop
  | point name => name ≠ [] ∧ ∀ c ∈ name, c ≠ '.' ∧ c ≠ '['
  | bracket text => (∀ c ∈ text, c ≠ ']') ∧ ∀ c ∈ text.head?, c ∉ ['"', '\'']
  | quoted mark key => mark ∈ ['"', '\''] ∧ ∀ c ∈ key, c ≠ mark

-- The instances are named because there is another one, which goes through all characters.
instance : DecidablePred Readable
  | point name => @instDecidableAnd _ _ inferInstance (List.decidableBAll _ name)
  | bracket text =>
      @instDecidableAnd _ _ (List.decidableBAll _ text) (Option.decidableForallMem text.head?)
  | quoted _ key => @instDecidableAnd _ _ inferInstance (List.decidableBAll _ key)

end Access

/-- The text of accesses. -/
def accessChars (accesses : List Access) : List Char :=
  accesses.flatMap Access.chars

variable {accesses : List Access} {head rest : List Char}

@[simp] theorem accessChars_nil : accessChars [] = [] := rfl

@[simp] theorem accessChars_cons (a : Access) (accesses : List Access) :
    accessChars (a :: accesses) = a.chars ++ accessChars accesses :=
  List.flatMap_cons

/-! ## Segments -/

theorem segmentsFrom_opened {text : List Char} (readable : (Access.bracket text).Readable) :
    segmentsFrom .opened (text ++ ']' :: rest) =
      (Access.bracket text).segment :: segmentsFrom (.plain []) rest := by
  cases text with
  | nil => rfl
  | cons c text =>
      obtain ⟨noBracket, noBrackets⟩ := List.forall_mem_cons.1 readable.1
      have noQuote : ¬(c = '"' ∨ c = '\'') := by simpa using readable.2 c rfl
      rw [List.cons_append, segmentsFrom, if_neg noQuote, if_neg noBracket,
        segmentsFrom_bracket noBrackets, ← List.reverse_cons, bracketSegment, List.reverse_reverse]
      rfl

/-- The segments of accesses are found one after the other. -/
theorem segmentsFrom_accessChars (readable : ∀ a ∈ accesses, a.Readable) (before : List Char) :
    segmentsFrom (.plain before) (accessChars accesses) =
      plainSegment before ++ accesses.map Access.segment := by
  induction accesses generalizing before with
  | nil => simp [segmentsFrom]
  | cons a accesses ih =>
      obtain ⟨first, others⟩ := List.forall_mem_cons.1 readable
      cases a with
      | point name =>
          rw [accessChars_cons, Access.chars, List.cons_append, segmentsFrom, if_pos rfl,
            segmentsFrom_plain first.2, List.append_nil, ih others, plainSegment_reverse first.1]
          rfl
      | bracket text =>
          rw [accessChars_cons, Access.chars, List.cons_append, segmentsFrom, if_neg (by decide),
            if_pos rfl, List.append_assoc, List.singleton_append, segmentsFrom_opened first,
            ih others]
          rfl
      | quoted mark key =>
          have either : mark = '"' ∨ mark = '\'' := by simpa using first.1
          have parts : key ++ [mark, ']'] ++ accessChars accesses =
              key ++ mark :: ']' :: accessChars accesses := by simp
          rw [accessChars_cons, Access.chars, List.cons_append, segmentsFrom, if_neg (by decide),
            if_pos rfl, List.cons_append, segmentsFrom, if_pos either, parts,
            segmentsFrom_quoted first.2, List.append_nil, bracketSegment, List.reverse_reverse,
            ih others]
          rfl

/-! ## Looking up -/

/-- The text of accesses without a point in front of it. -/
def behindPoint : List Access → List Char
  | .point name :: accesses => name ++ accessChars accesses
  | accesses => accessChars accesses

theorem splitHead_accessChars (accesses : List Access) :
    splitHead (accessChars accesses) = ([], behindPoint accesses) := by
  match accesses with
  | [] | .point _ :: _ | .bracket _ :: _ | .quoted _ _ :: _ => rfl

theorem segmentsFrom_behindPoint (readable : ∀ a ∈ accesses, a.Readable) :
    segmentsFrom (.plain []) (behindPoint accesses) = accesses.map Access.segment := by
  match accesses, readable with
  | [], _ => rfl
  | .point name :: accesses, readable =>
      obtain ⟨first, others⟩ := List.forall_mem_cons.1 readable
      rw [behindPoint, segmentsFrom_plain first.2, List.append_nil, segmentsFrom_accessChars others,
        plainSegment_reverse first.1]
      rfl
  | .bracket _ :: _, readable | .quoted _ _ :: _, readable =>
      exact segmentsFrom_accessChars readable []

/-- The segments of accesses are followed from the value of the first name on, unless this name is
that of the root: then the rest is a path of its own. -/
theorem lookupChars_accesses {scope : Scope} (ends : ∀ c ∈ head, c ≠ '.' ∧ c ≠ '[')
    (readable : ∀ a ∈ accesses, a.Readable) (filled : head ++ accessChars accesses ≠ [])
    (trimmed : Text.trim (head ++ accessChars accesses) = head ++ accessChars accesses) :
    scope.lookupChars (head ++ accessChars accesses) =
      if head = ['d', 'a', 't', 'a'] ∧ scope.dataIsRoot = true then
        if behindPoint accesses = [] then some (.obj scope.merged)
        else scope.lookupChars (behindPoint accesses)
      else follow (scope.named? (String.ofList head)) (accesses.map Access.segment) := by
  have split : splitHead (head ++ accessChars accesses) = (head, behindPoint accesses) := by
    rw [splitHead_append ends, splitHead_accessChars, List.append_nil]
  rw [Scope.lookupChars]
  simp only [trimmed, split]
  rw [if_neg filled]
  split
  next => rfl
  next => rw [bind_walk, segments, String.toList_ofList, segmentsFrom_behindPoint readable]

end UiDoc.Path
