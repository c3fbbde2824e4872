import UiDoc.Decimal

/-!
# Texts of keys

Keys are put together from ids, from numerals of positions, and from signs between them.  What they
were put together from can be told from their texts as far as no part contains such a sign itself.
-/

namespace UiDoc

namespace Decimal

variable {m n : Nat}

theorem toList_natText (n : Nat) : (natText n).toList = Nat.toDigits 10 n :=
  String.toList_ofList

theorem isDigit_of_mem_natText {c : Char} (member : c ∈ (natText n).toList) : c.isDigit = true := by
  rw [toList_natText] at member
  exact Nat.isDigit_of_mem_toDigits (by decide) (by decide) member

theorem natText_inj (same : natText m = natText n) : m = n := by
  have read (n : Nat) : Nat.ofDigitChars 10 (natText n).toList 0 = n := by
    rw [toList_natText]
    exact Nat.ofDigitChars_ten_toDigits
  rw [← read m, same, read n]

end Decimal

namespace Key

open Decimal (natText toList_natText isDigit_of_mem_natText)

/-! ## Longer keys -/

/-- The number that a key was made longer by can be told from the longer key. -/
theorem lengthened_inj {a b : String} {m n : Nat}
    (same : a ++ "-" ++ natText m = b ++ "-" ++ natText n) : m = n := by
  have backwards (key : String) (n : Nat) :
      (key ++ "-" ++ natText n).toList.reverse.takeWhile Char.isDigit =
        (natText n).toList.reverse := by
    have digits : ∀ c ∈ (natText n).toList.reverse, c.isDigit = true :=
      fun c member => isDigit_of_mem_natText (List.mem_reverse.1 member)
    have minus : "-".toList.reverse = ['-'] := by decide
    simp only [String.toList_append, List.reverse_append, minus]
    rw [List.takeWhile_append_of_pos digits, List.singleton_append,
      List.takeWhile_cons_of_neg (by decide), List.append_nil]
  have reversed : (natText m).toList.reverse = (natText n).toList.reverse := by
    rw [← backwards a m, same, backwards b n]
  exact Decimal.natText_inj (String.toList_inj.1 (List.reverse_inj.1 reversed))

/-! ## Parts of keys -/

/-- A sign that stands in front of a part of a key. -/
def isSign (c : Char) : Bool :=
  c = '.' || c = '['

/-- What stands in front of the first sign of a key. -/
def head (key : String) : List Char :=
  key.toList.takeWhile fun c => !isSign c

/-- A text without signs that is no numeral. -/
structure Plain (id : String) : Prop where
  unsigned : ∀ c ∈ id.toList, isSign c = false
  named : ∃ c ∈ id.toList, c.isDigit = false

theorem plain_iff {id : String} : Plain id ↔
    (id.toList.all fun c => !isSign c) = true ∧ (id.toList.any fun c => !c.isDigit) = true := by
  simp only [List.all_eq_true, List.any_eq_true, Bool.not_eq_true']
  exact ⟨fun plain => ⟨plain.unsigned, plain.named⟩, fun ⟨unsigned, named⟩ => ⟨unsigned, named⟩⟩

instance (id : String) : Decidable (Plain id) :=
  decidable_of_iff _ plain_iff.symm

/-- A key that is the other one, or goes on behind it with a point. -/
def Under (base key : String) : Prop :=
  ∃ rest : List Char, key.toList = base.toList ++ rest ∧ ∀ c ∈ rest.head?, c = '.'

variable {base middle key parent : String}

theorem under_refl (key : String) : Under key key :=
  ⟨[], (List.append_nil _).symm, nofun⟩

theorem under_append (key part : String) : Under key (key ++ "." ++ part) :=
  ⟨'.' :: part.toList, by simp, by simp⟩

theorem Under.trans (first : Under base middle) (second : Under middle key) : Under base key := by
  obtain ⟨front, written, point⟩ := first
  obtain ⟨back, longer, pointBack⟩ := second
  refine ⟨front ++ back, by rw [longer, written, List.append_assoc], ?_⟩
  cases front with
  | nil => exact pointBack
  | cons c cs => exact point

theorem takeWhile_of_signed {rest : List Char} (signed : ∀ c ∈ rest.head?, isSign c = true) :
    rest.takeWhile (fun c => !isSign c) = [] := by
  cases rest with
  | nil => rfl
  | cons c cs => exact List.takeWhile_cons_of_neg (by simp [signed c rfl])

/-- The signs end what stands in front of them. -/
theorem takeWhile_append_of_signed {front rest : List Char}
    (unsigned : ∀ c ∈ front, isSign c = false) (signed : ∀ c ∈ rest.head?, isSign c = true) :
    (front ++ rest).takeWhile (fun c => !isSign c) = front := by
  rw [List.takeWhile_append_of_pos fun c member => by simp [unsigned c member],
    takeWhile_of_signed signed, List.append_nil]

/-- A key that goes on with a sign has the same head. -/
theorem head_of_append (rest : List Char) (written : key.toList = base.toList ++ rest)
    (signed : ∀ c ∈ rest.head?, isSign c = true) : head key = head base := by
  rw [head, written, List.takeWhile_append, takeWhile_of_signed signed, List.append_nil]
  split
  · rename_i whole
    exact ((List.takeWhile_prefix _).eq_of_length whole).symm
  · rfl

theorem isSign_of_point {rest : List Char} (point : ∀ c ∈ rest.head?, c = '.') :
    ∀ c ∈ rest.head?, isSign c = true := by
  intro c first
  rw [point c first]
  rfl

theorem Under.head_eq (under : Under base key) : head key = head base := by
  obtain ⟨rest, written, point⟩ := under
  exact head_of_append rest written (isSign_of_point point)

theorem head_point (key part : String) : head (key ++ "." ++ part) = head key :=
  (under_append key part).head_eq

theorem head_bracket (key part : String) : head (key ++ "[" ++ part ++ "]") = head key :=
  head_of_append ('[' :: part.toList ++ [']']) (by simp) (by simp [isSign])

theorem Plain.head_eq {id : String} (plain : Plain id) : head id = id.toList := by
  have whole : (id.toList ++ []).takeWhile (fun c => !isSign c) = id.toList :=
    takeWhile_append_of_signed plain.unsigned nofun
  rwa [List.append_nil] at whole

theorem isSign_of_mem_natText {c : Char} {n : Nat} (member : c ∈ (natText n).toList) :
    isSign c = false := by
  have digit := isDigit_of_mem_natText member
  cases sign : isSign c with
  | false => rfl
  | true =>
      simp only [isSign, Bool.or_eq_true, decide_eq_true_eq] at sign
      rcases sign with rfl | rfl <;> exact absurd digit (by decide)

theorem Plain.ne_natText {id : String} (plain : Plain id) (n : Nat) : id ≠ natText n := by
  rintro rfl
  obtain ⟨c, member, other⟩ := plain.named
  rw [isDigit_of_mem_natText member] at other
  cases other

/-- The part that follows a point can be told from any key that goes on with a point. -/
theorem part_eq_of_under {first second : String}
    (unsigned : ∀ c ∈ first.toList, isSign c = false)
    (unsignedOther : ∀ c ∈ second.toList, isSign c = false)
    (under : Under (parent ++ "." ++ first) key)
    (underOther : Under (parent ++ "." ++ second) key) :
    first = second := by
  obtain ⟨rest, written, point⟩ := under
  obtain ⟨other, writtenOther, pointOther⟩ := underOther
  have same : first.toList ++ rest = second.toList ++ other := by
    rw [written] at writtenOther
    simpa using writtenOther
  apply String.toList_inj.1
  rw [← takeWhile_append_of_signed unsigned (isSign_of_point point), same,
    takeWhile_append_of_signed unsignedOther (isSign_of_point pointOther)]

end Key

end UiDoc
