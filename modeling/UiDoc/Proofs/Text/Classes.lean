import UiDoc.Text.Identifier

/-!
# Classes of characters as lists

A class with few members is the list of these, so that what is true of each of them can be decided.
-/

namespace UiDoc.Text

/-- What is true of each character of a text can be tested one character after the other. -/
theorem forall_of_all {cs : List Char} {p : Char → Prop} [DecidablePred p]
    (all : (cs.all fun c => decide (p c)) = true) : ∀ c ∈ cs, p c :=
  fun c member => of_decide_eq_true (List.all_eq_true.1 all c member)

/-- A character of a class is none of those that are outside of it. -/
theorem not_mem_of_all {p : Char → Bool} {c : Char} (inside : p c = true) {cs : List Char}
    (foreign : cs.all (!p ·) = true) : c ∉ cs := by
  intro member
  have other := List.all_eq_true.1 foreign c member
  rw [inside] at other
  cases other

theorem foldl_bounds {n : Nat} {bounds : List Nat} (below : ∀ bound ∈ bounds, n < bound)
    (inside : Bool) :
    bounds.foldl (fun inside bound => if bound ≤ n then !inside else inside) inside = inside := by
  induction bounds generalizing inside with
  | nil => rfl
  | cons bound rest ih =>
      obtain ⟨first, others⟩ := List.forall_mem_cons.1 below
      rw [List.foldl_cons, if_neg (Nat.not_le.2 first), ih others]

/-- The first two boundaries of a class are those of its first part. -/
theorem inClass_cons_cons {n a b : Nat} {bounds : List Nat}
    (ordered : (a :: b :: bounds).Pairwise (· < ·)) :
    inClass (a :: b :: bounds) n = ((decide (a ≤ n) && decide (n < b)) || inClass bounds n) := by
  obtain ⟨first, ordered⟩ := List.pairwise_cons.1 ordered
  obtain ⟨second, -⟩ := List.pairwise_cons.1 ordered
  have less : a < b := first b (List.mem_cons_self ..)
  unfold inClass
  rw [List.foldl_cons, List.foldl_cons]
  by_cases behind : b ≤ n
  · have within : a ≤ n := by omega
    have outside : ¬n < b := by omega
    simp [behind, within, outside]
  · have below : ∀ bound ∈ bounds, n < bound := fun bound member => by
      have := second bound member
      omega
    rw [if_neg behind, foldl_bounds below, foldl_bounds below]
    by_cases within : a ≤ n <;> simp [within, Nat.lt_of_not_le behind]

/-- The code points of white space. -/
def blankCodes : List Nat := [
  9, 10, 11, 12, 13, 32, 0x85, 0xA0, 0x1680, 0x2000, 0x2001, 0x2002, 0x2003, 0x2004, 0x2005, 0x2006,
  0x2007, 0x2008, 0x2009, 0x200A, 0x2028, 0x2029, 0x202F, 0x205F, 0x3000]

/-- White space is one of these characters. -/
def blanks : List Char :=
  blankCodes.map Char.ofNat

/-- A character is one of those with some codes if its code is one of these. -/
theorem mem_map_ofNat {codes : List Nat} {c : Char} (listed : c.toNat ∈ codes) :
    c ∈ codes.map Char.ofNat := by
  have member := List.mem_map_of_mem (f := Char.ofNat) listed
  rwa [Char.ofNat_toNat] at member

theorem mem_blanks {c : Char} (blank : isBlank c = true) : c ∈ blanks := by
  apply mem_map_ofNat
  unfold isBlank at blank
  split at blank
  · have low : c = ' ' ∨ 9 ≤ c.toNat ∧ c.toNat ≤ 13 := of_decide_eq_true blank
    rcases low with rfl | bounds
    · decide
    · simp only [blankCodes, List.mem_cons, List.not_mem_nil, or_false]
      omega
  · simp only [blankBounds] at blank
    repeat rw [inClass_cons_cons (by decide)] at blank
    simp only [inClass, List.foldl_nil, Bool.or_eq_true, Bool.and_eq_true, decide_eq_true_eq,
      Bool.false_eq_true, or_false] at blank
    simp only [blankCodes, List.mem_cons, List.not_mem_nil, or_false]
    omega

/-- The decimal digits. -/
def digits : List Char :=
  (List.range' 48 10).map Char.ofNat

theorem mem_digits {c : Char} (low : '0' ≤ c) (high : c ≤ '9') : c ∈ digits := by
  apply mem_map_ofNat
  have bounds : 48 ≤ c.toNat ∧ c.toNat ≤ 57 := ⟨low, high⟩
  rw [List.mem_range'_1]
  omega

/-- The characters of ASCII. -/
def ascii : List Char :=
  (List.range 128).map Char.ofNat

theorem mem_ascii {c : Char} (low : c.toNat < 128) : c ∈ ascii :=
  mem_map_ofNat (List.mem_range.2 low)

theorem mem_ascii_of_isPlainStart {c : Char} (start : isPlainStart c = true) : c ∈ ascii := by
  apply mem_ascii
  have bounds : ('a' ≤ c ∧ c ≤ 'z') ∨ ('A' ≤ c ∧ c ≤ 'Z') ∨ c = '_' ∨ c = '$' := by
    simpa [isPlainStart] using start
  have letters : (97 ≤ c.toNat ∧ c.toNat ≤ 122) ∨ (65 ≤ c.toNat ∧ c.toNat ≤ 90) ∨
      c = '_' ∨ c = '$' := bounds
  rcases letters with low | low | rfl | rfl
  · omega
  · omega
  · decide
  · decide

/-! ## Characters of names -/

theorem isIdentifierStart_of_isPlainStart {c : Char} (start : isPlainStart c = true) :
    isIdentifierStart c = true := by
  have all : ∀ c ∈ ascii, c.toNat < 0x80 := forall_of_all (by decide)
  rw [isIdentifierStart, if_pos (all c (mem_ascii_of_isPlainStart start)), start]

theorem isIdentifierPart_of_isIdentifierStart {c : Char} (start : isIdentifierStart c = true) :
    isIdentifierPart c = true := by
  unfold isIdentifierStart at start
  unfold isIdentifierPart
  split at start <;> simp [*]

/-- Stretches of codes, from the first to the last, with all the white space beyond ASCII. -/
def blankSpans : List (Nat × Nat) := [
  (0x85, 0xA0), (0x1680, 0x1680), (0x2000, 0x200A), (0x2028, 0x202F), (0x205F, 0x205F),
  (0x3000, 0x3000)]

/-- The members of a class, from one boundary up to the next, keep clear of all the spans. -/
def clearOf (spans : List (Nat × Nat)) : List Nat → Bool
  | low :: high :: bounds =>
      Nat.ble low high && spans.all (fun (first, last) => Nat.blt last low || Nat.ble high first) &&
        clearOf spans bounds
  | bounds => bounds.isEmpty

theorem inClass_of_clearOf {spans : List (Nat × Nat)} {bounds : List Nat} {first last n : Nat}
    (span : (first, last) ∈ spans) (begun : first ≤ n) (within : n ≤ last)
    (clear : clearOf spans bounds = true) : inClass bounds n = false := by
  induction bounds using clearOf.induct with
  | case1 low high bounds ih =>
      simp only [clearOf, Bool.and_eq_true] at clear
      obtain ⟨⟨ordered, apart⟩, rest⟩ := clear
      have ordered := Nat.le_of_ble_eq_true ordered
      have beside : last < low ∨ high ≤ first := by
        simpa [Nat.blt, Nat.add_one_le_iff] using List.all_eq_true.1 apart _ span
      have none := ih rest
      unfold inClass at none ⊢
      -- The code has passed both of the boundaries or none of them.
      by_cases passed : high ≤ n
      · simp [passed, Nat.le_trans ordered passed, none]
      · have before : ¬low ≤ n := by omega
        simp [passed, before, none]
  | case2 bounds other =>
      match bounds, other with
      | [], _ => rfl
      | [_], _ => cases clear
      | _ :: _ :: _, other => exact (other _ _ _ rfl).elim

/-- White space belongs to no name. -/
theorem isIdentifierPart_of_mem_blanks {c : Char} (blank : c ∈ blanks) :
    isIdentifierPart c = false := by
  have known : ∀ c ∈ blanks, (c.toNat < 0x80 ∧ isIdentifierPart c = false) ∨
      (¬c.toNat < 0x80 ∧ c.toNat ≠ 0x200C ∧ c.toNat ≠ 0x200D) ∧
        ∃ span ∈ blankSpans, span.1 ≤ c.toNat ∧ c.toNat ≤ span.2 := forall_of_all (by decide)
  have letters : clearOf blankSpans identifierStartBounds = true := by decide +kernel
  have marks : clearOf blankSpans identifierExtendBounds = true := by decide +kernel
  obtain ⟨-, outside⟩ | ⟨⟨high, joiner, other⟩, span, member, begun, within⟩ := known c blank
  · exact outside
  · rw [isIdentifierPart, if_neg high, inClass_of_clearOf member begun within letters,
      inClass_of_clearOf member begun within marks]
    simp [joiner, other]

end UiDoc.Text
