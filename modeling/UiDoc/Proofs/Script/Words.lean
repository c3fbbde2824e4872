import UiDoc.Script.Operator
import UiDoc.Proofs.Binary64.Integers

/-!
# Words of 32 bits

The operators on bits see no more of an operand than its word.  The word of a finite number is its
whole part modulo `2 ^ 32` as long as the whole part fits into 64 bits; beyond them the whole part
is clamped first, and its last bits are lost.
-/

namespace UiDoc.Script

open Binary64 (towardsZero clamp)

variable {v w v' w' : Value} {t : Int}

/-! ## Operators on bits -/

/-- The operators on the bits of two operands. -/
def BinaryOp.bitwise : List BinaryOp :=
  [bitAnd, bitOr, bitXor, shiftLeft, shiftRight, shiftRightZero]

theorem BinaryOp.apply_congr {op : BinaryOp} (listed : op ∈ bitwise) (left : toWord v = toWord v')
    (right : toWord w = toWord w') : op.apply v w = op.apply v' w' := by
  have distance : shiftAmount w = shiftAmount w' := by rw [shiftAmount, shiftAmount, right]
  simp only [bitwise, List.mem_cons, List.not_mem_nil, or_false] at listed
  rcases listed with rfl | rfl | rfl | rfl | rfl | rfl
  all_goals simp only [apply, left, right, distance]

/-! ## Whole parts -/

/-- The whole part of the number that a value stands for. -/
def whole? (v : Value) : Option Int :=
  (Binary64.ofFloat (Value.toFloat v)).value?.map towardsZero

theorem exists_whole (finite : (Value.toFloat v).isFinite = true) : ∃ t, whole? v = some t := by
  obtain ⟨q, value⟩ := Binary64.isFinite_iff.1 finite
  exact ⟨towardsZero q, by rw [whole?, value, Option.map_some]⟩

theorem whole?_integer (small : t.natAbs < 2 ^ 53) : whole? (integer t) = some t := by
  have value := Binary64.value?_ofInt t small
  rw [whole?]
  change Option.map _ (Binary64.ofFloat (Float.ofInt t)).value? = _
  rw [value, Option.map_some, Binary64.towardsZero_intCast]

/-- A whole part that does not fit into 64 bits is even. -/
theorem two_dvd_of_whole (whole : whole? v = some t) (large : 2 ^ 63 ≤ |t|) : 2 ∣ t := by
  obtain ⟨q, value, rfl⟩ := Option.map_eq_some_iff.1 whole
  exact Binary64.two_dvd_towardsZero value large

/-! ## Words -/

theorem toWord_of_whole (whole : whole? v = some t) :
    toWord v = BitVec.ofInt 32 (clamp (-2 ^ 63) (2 ^ 63 - 1) t) := by
  obtain ⟨q, value, rfl⟩ := Option.map_eq_some_iff.1 whole
  have finite : (Value.toFloat v).isFinite = true := Binary64.isFinite_iff.2 ⟨q, value⟩
  simp only [toWord, finite, if_true, Binary64.toInt64_of_value? value]

theorem toWord_integer (word : BitVec 32) : toWord (integer word.toInt) = word := by
  have low := BitVec.le_toInt word
  have high := BitVec.toInt_lt (x := word)
  have whole : whole? (integer word.toInt) = some word.toInt := whole?_integer (by omega)
  have inside : clamp (-2 ^ 63) (2 ^ 63 - 1) word.toInt = word.toInt := by
    simp only [clamp]
    omega
  rw [toWord_of_whole whole, inside, BitVec.ofInt_toInt]

/-- Clamping to 64 bits keeps an even number modulo `2 ^ 32` only if it leaves the number as it is
or takes a multiple of `2 ^ 32` to the least number of 64 bits. -/
theorem clamp_modEq_iff (even : 2 ^ 63 ≤ |t| → 2 ∣ t) :
    clamp (-2 ^ 63) (2 ^ 63 - 1) t ≡ t [ZMOD 2 ^ 32] ↔
      t < 2 ^ 63 ∧ (-2 ^ 63 ≤ t ∨ 2 ^ 32 ∣ t) := by
  rw [Int.modEq_iff_dvd]
  rcases lt_or_ge t (2 ^ 63) with below | above
  · rcases lt_or_ge t (-2 ^ 63) with low | inside
    · have least : clamp (-2 ^ 63) (2 ^ 63 - 1) t = -2 ^ 63 := by
        simp only [clamp]
        omega
      rw [least]
      omega
    · have same : clamp (-2 ^ 63) (2 ^ 63 - 1) t = t := by
        simp only [clamp]
        omega
      rw [same]
      omega
  · -- The greatest number of 64 bits is odd.
    have greatest : clamp (-2 ^ 63) (2 ^ 63 - 1) t = 2 ^ 63 - 1 := by
      simp only [clamp]
      omega
    have even := even (le_abs.2 (.inl above))
    rw [greatest]
    omega

/-- The word of a finite number is its whole part, clamped to 64 bits and then reduced modulo
`2 ^ 32`, and that is all that an operator on bits sees of an operand. -/
theorem word_congruent_iff (v : Value) (finite : (Value.toFloat v).isFinite = true) :
    ∃ t, whole? v = some t ∧
      (toWord v).toInt = (clamp (-2 ^ 63) (2 ^ 63 - 1) t).bmod (2 ^ 32) ∧
      ((toWord v).toInt ≡ t [ZMOD 2 ^ 32] ↔ t < 2 ^ 63 ∧ (-2 ^ 63 ≤ t ∨ 2 ^ 32 ∣ t)) ∧
      UnaryOp.bitNot.apply v = UnaryOp.bitNot.apply (integer (toWord v).toInt) ∧
      ∀ op ∈ BinaryOp.bitwise, ∀ w,
        op.apply v w = op.apply (integer (toWord v).toInt) w ∧
          op.apply w v = op.apply w (integer (toWord v).toInt) := by
  obtain ⟨t, whole⟩ := exists_whole finite
  have word : (toWord v).toInt = (clamp (-2 ^ 63) (2 ^ 63 - 1) t).bmod (2 ^ 32) := by
    rw [toWord_of_whole whole, BitVec.toInt_ofInt]
  have reduced : (toWord v).toInt ≡ clamp (-2 ^ 63) (2 ^ 63 - 1) t [ZMOD 2 ^ 32] :=
    word ▸ Int.bmod_emod
  have same : toWord v = toWord (integer (toWord v).toInt) := (toWord_integer _).symm
  refine ⟨t, whole, word, ?_, ?_, fun op listed w => ⟨?_, ?_⟩⟩
  · rw [← clamp_modEq_iff (two_dvd_of_whole whole)]
    exact ⟨reduced.symm.trans, reduced.trans⟩
  · simp only [UnaryOp.apply, toWord_integer]
  · exact BinaryOp.apply_congr listed same rfl
  · exact BinaryOp.apply_congr listed rfl same

/-- A number of more than 32 bits is reduced, whatever its fraction is. -/
theorem word_congruent_iff_long :
    let v : Value := some (.num (.float (-4294967301.75)))
    (Value.toFloat v).isFinite = true ∧ (toWord v).toInt = -5 ∧
      BinaryOp.bitOr.apply v none = BinaryOp.bitOr.apply (integer (-5)) none := by
  intro v
  have finite : (Value.toFloat v).isFinite = true := by decide +kernel
  have word : (toWord v).toInt = -5 := by decide +kernel
  obtain ⟨-, -, -, -, -, operators⟩ := word_congruent_iff v finite
  exact ⟨finite, word, word ▸ (operators .bitOr (by decide) none).1⟩

/-- The least positive number that does not fit into 64 bits is a multiple of `2 ^ 32`, but its word
is that of `-1`. -/
theorem word_of_two_pow :
    let v : Value := some (.int (2 ^ 63))
    (Value.toFloat v).isFinite = true ∧ whole? v = some (2 ^ 63) ∧ (toWord v).toInt = -1 ∧
      ¬(toWord v).toInt ≡ 2 ^ 63 [ZMOD 2 ^ 32] := by
  intro v
  have finite : (Value.toFloat v).isFinite = true := by decide +kernel
  have word : (toWord v).toInt = -1 := by decide +kernel
  have whole : whole? v = some (2 ^ 63) := by
    have pieces : Binary64.ofFloat (Value.toFloat v) = .finite false (2 ^ 52) 11 := by
      decide +kernel
    have value : (Binary64.ofFloat (Value.toFloat v)).value? = some ((2 ^ 63 : Int) : ℚ) := by
      rw [pieces]
      norm_num [Binary64.value?, Binary64.magnitude]
    rw [whole?, value, Option.map_some, Binary64.towardsZero_intCast]
  refine ⟨finite, whole, word, ?_⟩
  rw [word]
  decide

end UiDoc.Script
