import Mathlib.Data.List.Basic
import Mathlib.Data.List.TakeWhile
import UiDoc.Text.Class

/-!
# White space at the ends of a text

Trimming removes white space at both ends, however much there is, and nothing else.
-/

namespace UiDoc.Text

variable {cs lead trail : List Char}

theorem trimEnd_eq (cs : List Char) : trimEnd cs = (cs.reverse.dropWhile isBlank).reverse := by
  unfold trimEnd trimStart
  split
  case isTrue => rfl
  case isFalse filled =>
    rw [← List.head?_reverse] at filled
    cases same : cs.reverse with
    | nil => simpa using same
    | cons c rest =>
        have other : isBlank c = false := by simpa [same] using filled
        rw [List.dropWhile_cons_of_neg (by simp [other]), ← same, List.reverse_reverse]

theorem dropWhile_of_blank (blank : ∀ c ∈ cs, isBlank c) : cs.dropWhile isBlank = [] :=
  List.dropWhile_eq_nil_iff.2 blank

theorem trim_append_left (blank : ∀ c ∈ lead, isBlank c) (cs : List Char) :
    trim (lead ++ cs) = trim cs := by
  rw [trim, trimStart, List.dropWhile_append_of_pos blank]
  rfl

theorem trim_append_right (blank : ∀ c ∈ trail, isBlank c) (cs : List Char) :
    trim (cs ++ trail) = trim cs := by
  have blankToo : ∀ c ∈ trail.reverse, isBlank c := fun c member =>
    blank c (List.mem_reverse.1 member)
  simp only [trim, trimStart, trimEnd_eq, List.dropWhile_append]
  split
  case isTrue empty =>
    rw [dropWhile_of_blank blank, List.isEmpty_iff.1 empty]
  case isFalse =>
    rw [List.reverse_append, List.dropWhile_append_of_pos blankToo]

/-- White space around a text changes nothing about what is left of it. -/
theorem trim_padded (blankLead : ∀ c ∈ lead, isBlank c) (blankTrail : ∀ c ∈ trail, isBlank c)
    (cs : List Char) : trim (lead ++ (cs ++ trail)) = trim cs := by
  rw [trim_append_left blankLead, trim_append_right blankTrail]

/-- A text without white space at its ends is left as it is. -/
theorem trim_of_ends (first : ∀ c ∈ cs.head?, isBlank c = false)
    (last : ∀ c ∈ cs.getLast?, isBlank c = false) : trim cs = cs := by
  have start : trimStart cs = cs := by
    cases cs with
    | nil => rfl
    | cons c cs => exact List.dropWhile_cons_of_neg (by simp [first c rfl])
  rw [trim, start, trimEnd, if_neg]
  intro blank
  obtain ⟨c, found, blank⟩ := (Option.any_eq_true _ _).1 blank
  rw [last c found] at blank
  cases blank

theorem not_blank_head_dropWhile (cs : List Char) :
    ∀ c ∈ (cs.dropWhile isBlank).head?, isBlank c = false := by
  intro c first
  have stops := List.head?_dropWhile_not isBlank cs
  rw [first] at stops
  exact stops

theorem trimEnd_prefix (cs : List Char) : trimEnd cs <+: cs := by
  rw [trimEnd_eq, ← List.reverse_suffix, List.reverse_reverse]
  exact List.dropWhile_suffix _

theorem not_blank_head_trim (cs : List Char) : ∀ c ∈ (trim cs).head?, isBlank c = false := by
  intro c first
  obtain ⟨trail, parts⟩ := trimEnd_prefix (trimStart cs)
  apply not_blank_head_dropWhile cs c
  obtain ⟨rest, same⟩ := List.head?_eq_some_iff.1 first
  change (trimStart cs).head? = some c
  rw [← parts, show trimEnd (trimStart cs) = c :: rest from same]
  rfl

theorem not_blank_getLast_trim (cs : List Char) : ∀ c ∈ (trim cs).getLast?, isBlank c = false := by
  intro c last
  rw [trim, trimEnd_eq, List.getLast?_reverse] at last
  exact not_blank_head_dropWhile _ c last

theorem trim_trim (cs : List Char) : trim (trim cs) = trim cs :=
  trim_of_ends (not_blank_head_trim cs) (not_blank_getLast_trim cs)

/-- What is trimmed is white space. -/
theorem exists_trim (cs : List Char) :
    ∃ lead trail, cs = lead ++ (trim cs ++ trail) ∧ (∀ c ∈ lead, isBlank c) ∧
      ∀ c ∈ trail, isBlank c := by
  have ended (ds : List Char) : ∃ trail, ds = trimEnd ds ++ trail ∧ ∀ c ∈ trail, isBlank c := by
    refine ⟨(ds.reverse.takeWhile isBlank).reverse, ?_, fun c member => ?_⟩
    · rw [trimEnd_eq, ← List.reverse_append, List.takeWhile_append_dropWhile, List.reverse_reverse]
    · exact List.mem_takeWhile_imp (List.mem_reverse.1 member)
  obtain ⟨trail, parts, blank⟩ := ended (trimStart cs)
  refine ⟨cs.takeWhile isBlank, trail, ?_, fun c => List.mem_takeWhile_imp, blank⟩
  rw [trim, ← parts, trimStart, List.takeWhile_append_dropWhile]

theorem trim_ne_nil {c : Char} (member : c ∈ cs) (other : isBlank c = false) : trim cs ≠ [] := by
  intro nothing
  obtain ⟨lead, trail, parts, blankLead, blankTrail⟩ := exists_trim cs
  rw [parts, nothing, List.nil_append, List.mem_append] at member
  have blank := member.elim (blankLead c) (blankTrail c)
  rw [other] at blank
  cases blank

/-- A text without white space has none at its ends. -/
theorem trim_of_not_blank (filled : ∀ c ∈ cs, isBlank c = false) : trim cs = cs :=
  trim_of_ends (fun c first => filled c (List.mem_of_head? first))
    fun c last => filled c (List.mem_of_getLast? last)

/-- A text that does not start with white space loses some at its end only. -/
theorem exists_trim_cons {c : Char} (other : isBlank c = false) (cs : List Char) :
    ∃ rest trail, trim (c :: cs) = c :: rest ∧ cs = rest ++ trail ∧ ∀ c ∈ trail, isBlank c := by
  obtain ⟨lead, trail, parts, blankLead, blankTrail⟩ := exists_trim (c :: cs)
  cases lead with
  | cons b lead =>
      have blank := blankLead b (List.mem_cons_self ..)
      rw [← (List.cons.inj parts).1, other] at blank
      cases blank
  | nil =>
      cases trimmed : trim (c :: cs) with
      | nil =>
          rw [trimmed, List.nil_append, List.nil_append] at parts
          have blank := blankTrail c (parts ▸ List.mem_cons_self ..)
          rw [other] at blank
          cases blank
      | cons d rest =>
          rw [trimmed] at parts
          obtain ⟨rfl, same⟩ := List.cons.inj parts
          exact ⟨rest, trail, rfl, same, blankTrail⟩

theorem trim_cons {c : Char} (other : isBlank c = false) (filled : trim cs ≠ []) :
    ∃ lead, (∀ c ∈ lead, isBlank c) ∧ trim (c :: cs) = c :: (lead ++ trim cs) := by
  obtain ⟨lead, trail, parts, blankLead, blankTrail⟩ := exists_trim cs
  refine ⟨lead, blankLead, ?_⟩
  have padded : c :: cs = c :: (lead ++ trim cs) ++ trail := by
    rw [List.cons_append, List.append_assoc, ← parts]
  rw [padded, trim_append_right blankTrail]
  apply trim_of_ends
  · intro d first
    rwa [← Option.some.inj first]
  · intro d last
    apply not_blank_getLast_trim cs d
    rwa [← List.cons_append, List.getLast?_append_of_ne_nil _ filled] at last

/-- What stands between two texts is left as it is, and so is white space beside it. -/
theorem exists_trim_between {ds : List Char} (filled : trim cs ≠ []) (filledToo : trim ds ≠ [])
    (mid : List Char) :
    ∃ trail lead, (∀ c ∈ trail, isBlank c) ∧ (∀ c ∈ lead, isBlank c) ∧
      trim (cs ++ (mid ++ ds)) = (trim cs ++ trail) ++ (mid ++ (lead ++ trim ds)) := by
  obtain ⟨before, trail, parts, blankBefore, blankTrail⟩ := exists_trim cs
  obtain ⟨lead, behind, partsToo, blankLead, blankBehind⟩ := exists_trim ds
  refine ⟨trail, lead, blankTrail, blankLead, ?_⟩
  have padded :=
    calc cs ++ (mid ++ ds)
      _ = (before ++ (trim cs ++ trail)) ++ (mid ++ (lead ++ (trim ds ++ behind))) := by
        rw [← parts, ← partsToo]
      _ = before ++ (((trim cs ++ trail) ++ (mid ++ (lead ++ trim ds))) ++ behind) := by
        simp only [List.append_assoc]
  rw [padded, trim_padded blankBefore blankBehind]
  apply trim_of_ends
  · intro c first
    apply not_blank_head_trim cs c
    rwa [List.append_assoc, List.head?_append_of_ne_nil _ filled] at first
  · intro c last
    apply not_blank_getLast_trim ds c
    rwa [← List.append_assoc, ← List.append_assoc,
      List.getLast?_append_of_ne_nil _ filledToo] at last

end UiDoc.Text
