import UiDoc.Text.Search
import UiDoc.Text.Units

/-!
# Positions in texts

A position in a text is counted in UTF-16 units or in characters.  The two counts agree as long as
no character in front of the position has two units.
-/

namespace UiDoc.Text

variable {c : Char} {cs front back : List Char}

/-! ## Counting units -/

theorem foldl_unitWidth (cs : List Char) (count : Nat) :
    cs.foldl (fun count c => count + unitWidth c) count = count + unitLength cs := by
  induction cs generalizing count with
  | nil => rfl
  | cons c cs ih =>
      rw [unitLength, List.foldl_cons, List.foldl_cons, ih, ih, Nat.zero_add, Nat.add_assoc]

theorem unitLength_cons (c : Char) (cs : List Char) :
    unitLength (c :: cs) = unitWidth c + unitLength cs := by
  rw [unitLength, List.foldl_cons, foldl_unitWidth, Nat.zero_add]

theorem one_le_unitWidth (c : Char) : 1 ≤ unitWidth c := by
  rw [unitWidth]
  split <;> decide

theorem length_le_unitLength (cs : List Char) : cs.length ≤ unitLength cs := by
  induction cs with
  | nil => exact Nat.le_refl 0
  | cons c cs ih =>
      rw [List.length_cons, unitLength_cons, Nat.add_comm]
      exact Nat.add_le_add (one_le_unitWidth c) ih

theorem unitLength_eq_length (narrow : ∀ c ∈ cs, unitWidth c = 1) :
    unitLength cs = cs.length := by
  induction cs with
  | nil => rfl
  | cons c cs ih =>
      obtain ⟨first, others⟩ := List.forall_mem_cons.1 narrow
      rw [unitLength_cons, first, ih others, List.length_cons, Nat.add_comm]

/-- The unit behind a text is the character there, if that has no other unit. -/
theorem unitAt?_append (narrow : unitWidth c = 1) (front back : List Char) :
    unitAt? (front ++ c :: back) (unitLength front) = some c := by
  induction front with
  | nil => simp [unitAt?, unitLength, narrow]
  | cons d front ih =>
      rw [List.cons_append, unitAt?, unitLength_cons, if_neg (Nat.not_lt.2 (Nat.le_add_right ..)),
        Nat.add_sub_cancel_left, ih]

theorem getElem?_unitLength (before : ∀ d ∈ front, unitWidth d = 1) (back : List Char) :
    (front ++ c :: back)[unitLength front]? = some c := by
  rw [unitLength_eq_length before, List.getElem?_append_right (Nat.le_refl _), Nat.sub_self,
    List.getElem?_cons_zero]

/-! ## Finding a character -/

theorem idxOf_le_length (c : Char) (front back : List Char) :
    (front ++ c :: back).idxOf c ≤ front.length := by
  rw [List.idxOf_append]
  split
  case isTrue member => exact Nat.le_of_lt (List.idxOf_lt_length_of_mem member)
  case isFalse => simp

/-- The first character like one behind characters of one unit is found at its unit. -/
theorem unitAt?_idxOf (narrow : unitWidth c = 1) (before : ∀ d ∈ front, unitWidth d = 1)
    (back : List Char) :
    unitAt? (front ++ c :: back) ((front ++ c :: back).idxOf c) = some c := by
  induction front with
  | nil => simp [unitAt?, narrow]
  | cons d front ih =>
      obtain ⟨first, others⟩ := List.forall_mem_cons.1 before
      rw [List.cons_append, unitAt?, first, List.idxOf_cons]
      by_cases same : d = c
      · simp [same]
      · simp [beq_false_of_ne same, ih others]

/-- A pattern of which all characters have been seen ends where they end. -/
theorem findFrom_size (needle : Needle) (done : Nat) (cs : List Char) :
    needle.findFrom needle.size done cs = some (done - needle.size) := by
  cases cs <;> exact if_pos rfl

theorem findFrom_char (member : c ∈ cs) (done : Nat) :
    Needle.findFrom ⟨#[c], #[0]⟩ 0 done cs = some (done + cs.idxOf c) := by
  induction cs generalizing done with
  | nil => cases member
  | cons d cs ih =>
      rw [Needle.findFrom, if_neg (by simp [Needle.size])]
      by_cases same : c = d
      · have seen : Needle.next ⟨#[c], #[0]⟩ 0 d = Needle.size ⟨#[c], #[0]⟩ := by
          simp [Needle.next, Needle.advance, Needle.size, same]
        rw [seen, findFrom_size, same, List.idxOf_cons_self]
        rfl
      · have unseen : Needle.next ⟨#[c], #[0]⟩ 0 d = 0 := by
          simp [Needle.next, Needle.advance, same]
        have behind := (List.mem_cons.1 member).resolve_left same
        rw [unseen, ih behind, List.idxOf_cons, beq_false_of_ne (Ne.symm same), cond_false,
          Nat.add_right_comm, Nat.add_assoc]

/-- A character is found behind as many others as stand in front of the first one like it. -/
theorem find?_char (member : c ∈ cs) : find? [c] cs = some (cs.idxOf c) := by
  have found := findFrom_char member 0
  rwa [Nat.zero_add] at found

end UiDoc.Text
