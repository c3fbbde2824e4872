import Mathlib.Algebra.Ring.Nat
import UiDoc.Decimal
import UiDoc.Proofs.Text.Classes

/-!
# How decimal numerals are written

A numeral that can be read is digits, perhaps a point with digits behind it, and perhaps an
exponent.
-/

namespace UiDoc.Decimal

variable {ds cs rest whole fraction : List Char} {c : Char}

theorem digit?_of_mem (digit : c ∈ Text.digits) : (digit? c).isSome = true := by
  have all : ∀ c ∈ Text.digits, (digit? c).isSome = true := Text.forall_of_all (by decide)
  exact all c digit

theorem mem_digits_of_digit? {d : Nat} (is : digit? c = some d) : c ∈ Text.digits := by
  unfold digit? at is
  split at is
  case isTrue bounds => exact Text.mem_digits bounds.1 bounds.2
  case isFalse => cases is

/-- No digit stands at the start of the text. -/
def Stops (rest : List Char) : Prop :=
  ∀ c ∈ rest.head?, c ∉ Text.digits

/-- A text starts with as many digits as there are. -/
theorem exists_digits (cs : List Char) :
    ∃ ds rest, cs = ds ++ rest ∧ (∀ c ∈ ds, c ∈ Text.digits) ∧ Stops rest := by
  induction cs with
  | nil => exact ⟨[], [], rfl, nofun, nofun⟩
  | cons c cs ih =>
      by_cases digit : c ∈ Text.digits
      · obtain ⟨ds, rest, rfl, all, stops⟩ := ih
        exact ⟨c :: ds, rest, rfl, List.forall_mem_cons.2 ⟨digit, all⟩, stops⟩
      · refine ⟨[], c :: cs, rfl, nofun, fun d first => ?_⟩
        cases first
        exact digit

/-- A mantissa with the digits behind it. -/
def Mantissa.pushAll (m : Mantissa) (ds : List Char) : Mantissa :=
  ds.foldl (fun m c => m.push ((digit? c).getD 0)) m

theorem readFrom_append (all : ∀ c ∈ ds, c ∈ Text.digits) (stops : Stops rest) (count : Nat)
    (m : Mantissa) :
    Mantissa.readFrom count m (ds ++ rest) = (count + ds.length, m.pushAll ds, rest) := by
  induction ds generalizing count m with
  | nil =>
      cases rest with
      | nil => rfl
      | cons c rest =>
          have other : digit? c = none := by
            cases read : digit? c with
            | none => rfl
            | some d => exact absurd (mem_digits_of_digit? read) (stops c rfl)
          rw [List.nil_append, Mantissa.readFrom, other]
          rfl
  | cons c ds ih =>
      obtain ⟨digit, all⟩ := List.forall_mem_cons.1 all
      obtain ⟨d, read⟩ := Option.isSome_iff_exists.1 (digit?_of_mem digit)
      rw [List.cons_append, Mantissa.readFrom, read]
      simp only
      rw [ih all, Mantissa.pushAll, Mantissa.pushAll, List.foldl_cons, read, List.length_cons]
      congr 1
      omega

/-! ## Exponents -/

/-- The exponent that a whole text is. -/
def lastExponent? (cs : List Char) : Option Int :=
  match readExponent cs with
  | some (e, []) => some e
  | _ => none

/-- The text of an exponent, and the same with a small letter. -/
inductive ExponentText : List Char → List Char → Prop where
  | absent : ExponentText [] []
  | written {letter : Char} {sign ds : List Char} : letter ∈ ['e', 'E'] → sign ∈ [[], ['+'], ['-']] →
      ds ≠ [] → (∀ c ∈ ds, c ∈ Text.digits) →
      ExponentText (letter :: (sign ++ ds)) ('e' :: (sign ++ ds))

theorem digits_of_readDigits {limit count acc total n : Nat}
    (read : readDigits limit count acc cs = (total, n, [])) :
    (∀ c ∈ cs, c ∈ Text.digits) ∧ total = count + cs.length := by
  induction cs generalizing count acc with
  | nil =>
      cases read
      exact ⟨nofun, rfl⟩
  | cons c cs ih =>
      rw [readDigits] at read
      split at read
      case h_1 d is =>
        obtain ⟨all, same⟩ := ih read
        refine ⟨List.forall_mem_cons.2 ⟨mem_digits_of_digit? is, all⟩, ?_⟩
        rw [List.length_cons]
        omega
      case h_2 => cases read

/-- An exponent with its sign. -/
def signedExponent (negative : Bool) (ds : List Char) : Option (Int × List Char) :=
  match readDigits exponentLimit 0 0 ds with
  | (0, _, _) => none
  | (_, n, rest) => some (Binary64.signed negative n, rest)

theorem readExponent_letter (cs : List Char) :
    ∃ sign ds negative, cs = sign ++ ds ∧ sign ∈ [[], ['+'], ['-']] ∧
      ∀ letter ∈ ['e', 'E'], readExponent (letter :: cs) = signedExponent negative ds := by
  have letters : ∀ letter ∈ ['e', 'E'], letter = 'e' ∨ letter = 'E' :=
    Text.forall_of_all (by decide)
  by_cases minus : ∃ ds, cs = '-' :: ds
  · obtain ⟨ds, rfl⟩ := minus
    refine ⟨['-'], ds, true, rfl, by decide, fun letter listed => ?_⟩
    rw [readExponent, if_pos (letters letter listed)]
    rfl
  · by_cases plus : ∃ ds, cs = '+' :: ds
    · obtain ⟨ds, rfl⟩ := plus
      refine ⟨['+'], ds, false, rfl, by decide, fun letter listed => ?_⟩
      rw [readExponent, if_pos (letters letter listed)]
      rfl
    · refine ⟨[], cs, false, rfl, by decide, fun letter listed => ?_⟩
      rw [readExponent, if_pos (letters letter listed)]
      · rfl
      · exact fun ds same => minus ⟨ds, same⟩
      · exact fun ds same => plus ⟨ds, same⟩

theorem digits_of_signedExponent {negative : Bool} {e : Int}
    (read : signedExponent negative ds = some (e, [])) :
    ds ≠ [] ∧ ∀ c ∈ ds, c ∈ Text.digits := by
  unfold signedExponent at read
  split at read
  case h_1 => cases read
  case h_2 =>
    rename_i count n behind nonzero found
    cases read
    obtain ⟨all, same⟩ := digits_of_readDigits found
    refine ⟨?_, all⟩
    rintro rfl
    exact nonzero (by simpa using same)

/-- The exponent is the same if it is written with a small letter. -/
theorem exists_exponentText {e : Int} (last : lastExponent? cs = some e) :
    ∃ short, ExponentText cs short ∧ lastExponent? short = some e := by
  unfold lastExponent? at last
  split at last
  case h_2 => cases last
  case h_1 read =>
    cases last
    cases cs with
    | nil =>
        cases read
        exact ⟨[], .absent, rfl⟩
    | cons c cs =>
        by_cases letter : c ∈ ['e', 'E']
        · obtain ⟨sign, ds, negative, rfl, signs, reads⟩ := readExponent_letter cs
          rw [reads c letter] at read
          obtain ⟨filled, all⟩ := digits_of_signedExponent read
          refine ⟨_, .written letter signs filled all, ?_⟩
          rw [lastExponent?, reads 'e' (by decide), read]
        · have other : ¬(c = 'e' ∨ c = 'E') := by simpa using letter
          simp only [readExponent, if_neg other] at read
          cases read

theorem ExponentText.stops {exponent short : List Char} (text : ExponentText exponent short) :
    Stops short ∧ short.head? ≠ some '.' := by
  cases text with
  | absent => exact ⟨nofun, nofun⟩
  | written =>
      refine ⟨fun c first => ?_, by simp⟩
      cases first
      decide

/-! ## Numerals -/

/-- The number of a numeral without a point. -/
theorem readUnsigned_whole (all : ∀ c ∈ whole, c ∈ Text.digits) (stops : Stops rest)
    (noPoint : rest.head? ≠ some '.') :
    readUnsigned (whole ++ rest) =
      if whole.length = 0 then none
      else (lastExponent? rest).map fun e => (Mantissa.pushAll {} whole).toDecimal e := by
  unfold readUnsigned
  simp only [readFrom_append all stops]
  split
  case h_1 => exact absurd rfl noPoint
  case h_2 =>
    simp only [Nat.zero_add, Nat.add_zero, lastExponent?]
    rcases readExponent rest with _ | ⟨e, _ | _⟩
    · rfl
    · simp
    · rfl

/-- The number of a numeral with a point. -/
theorem readUnsigned_point (all : ∀ c ∈ whole, c ∈ Text.digits)
    (behind : ∀ c ∈ fraction, c ∈ Text.digits) (stops : Stops rest) :
    readUnsigned (whole ++ '.' :: (fraction ++ rest)) =
      if whole.length + fraction.length = 0 then none
      else (lastExponent? rest).map fun e =>
        ((Mantissa.pushAll {} whole).pushAll fraction).toDecimal (e - Int.ofNat fraction.length) := by
  have point : Stops ('.' :: (fraction ++ rest)) := fun c first => by
    cases first
    decide
  unfold readUnsigned
  simp only [readFrom_append all point, readFrom_append behind stops, Nat.zero_add]
  unfold lastExponent?
  rcases readExponent rest with _ | ⟨e, _ | _⟩
  all_goals rfl

/-- A numeral is digits, perhaps a point with digits behind it, and perhaps an exponent, which may
as well be written with a small letter. -/
theorem exists_of_readUnsigned {d : Decimal} (read : readUnsigned cs = some d) :
    ∃ whole point exponent short, cs = whole ++ (point ++ exponent) ∧
      (∀ c ∈ whole, c ∈ Text.digits) ∧ ExponentText exponent short ∧
      (point = [] ∧ whole ≠ [] ∨
        ∃ fraction, point = '.' :: fraction ∧ (∀ c ∈ fraction, c ∈ Text.digits) ∧
          whole ++ fraction ≠ []) ∧
      readUnsigned (whole ++ (point ++ short)) = some d := by
  obtain ⟨whole, rest, rfl, all, stops⟩ := exists_digits cs
  by_cases point : rest.head? = some '.'
  · obtain ⟨behind, rfl⟩ := List.head?_eq_some_iff.1 point
    obtain ⟨fraction, exponent, rfl, digits, ends⟩ := exists_digits behind
    rw [readUnsigned_point all digits ends] at read
    split at read
    case isTrue => cases read
    case isFalse filled =>
      obtain ⟨e, last, same⟩ := Option.map_eq_some_iff.1 read
      obtain ⟨short, text, lastShort⟩ := exists_exponentText last
      refine ⟨whole, '.' :: fraction, exponent, short, rfl, all, text,
        .inr ⟨fraction, rfl, digits, fun empty => filled ?_⟩, ?_⟩
      · rw [← List.length_append, empty, List.length_nil]
      · rw [List.cons_append, readUnsigned_point all digits text.stops.1, if_neg filled, lastShort,
          Option.map_some, same]
  · rw [readUnsigned_whole all stops point] at read
    split at read
    case isTrue => cases read
    case isFalse filled =>
      obtain ⟨e, last, same⟩ := Option.map_eq_some_iff.1 read
      obtain ⟨short, text, lastShort⟩ := exists_exponentText last
      refine ⟨whole, [], rest, short, rfl, all, text,
        .inl ⟨rfl, fun empty => filled (List.length_eq_zero_iff.2 empty)⟩, ?_⟩
      rw [List.nil_append, readUnsigned_whole all text.stops.1 text.stops.2, if_neg filled,
        lastShort, Option.map_some, same]

/-! ## Numerals of natural numbers -/

theorem digit?_of_isDigit (digit : c.isDigit = true) : digit? c = some (c.toNat - '0'.toNat) :=
  if_pos (by simpa [Char.isDigit, Char.le_def] using digit)

theorem le_ofDigitChars (ds : List Char) (acc : Nat) : acc ≤ Nat.ofDigitChars 10 ds acc := by
  rw [Nat.ofDigitChars_eq_ofDigitChars_zero]
  exact Nat.le_trans (Nat.le_mul_of_pos_left acc (Nat.pow_pos (by decide))) (Nat.le_add_right ..)

theorem readDigits_of_lt {limit acc : Nat} (all : ∀ c ∈ ds, c.isDigit = true)
    (small : Nat.ofDigitChars 10 ds acc < limit) (count : Nat) :
    readDigits limit count acc ds = (count + ds.length, Nat.ofDigitChars 10 ds acc, []) := by
  induction ds generalizing acc count with
  | nil => simp [readDigits]
  | cons c ds ih =>
      obtain ⟨digit, all⟩ := List.forall_mem_cons.1 all
      have room : acc < limit := Nat.lt_of_le_of_lt (le_ofDigitChars _ acc) small
      rw [Nat.ofDigitChars_cons] at small ⊢
      rw [readDigits, digit?_of_isDigit digit]
      simp only [if_pos room]
      rw [ih all small, List.length_cons, Nat.add_right_comm, Nat.add_assoc]

theorem readCount_toDigits {n : Nat} (small : n < 2 ^ 64) :
    readCount (Nat.toDigits 10 n) = some n := by
  have all : ∀ c ∈ Nat.toDigits 10 n, c.isDigit = true :=
    fun c => Nat.isDigit_of_mem_toDigits (by decide) (by decide)
  have value : Nat.ofDigitChars 10 (Nat.toDigits 10 n) 0 = n := Nat.ofDigitChars_ten_toDigits
  have read : readDigits (twoTo 64) 0 0 (Nat.toDigits 10 n) =
      (0 + (Nat.toDigits 10 n).length, n, []) := by
    rw [readDigits_of_lt all (by rwa [value]), value]
  have filled : 0 + (Nat.toDigits 10 n).length ≠ 0 := by
    simp [Nat.toDigits_ne_nil]
  rw [readCount]
  · simp only [read]
    exact if_pos ⟨filled, small⟩
  · intro rest same
    have digit := all '+' (same ▸ List.mem_cons_self ..)
    cases digit

end UiDoc.Decimal
