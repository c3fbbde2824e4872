import Mathlib
import UiDoc.Binary64

/-!
# Whole numbers as doubles

A positive double that is not too small has a significand of 53 bits.  A whole number below `2 ^ 53`
is such a double once its significand is shifted that far, so that nothing is rounded where it is
converted, or added to another one with a sum below `2 ^ 53`.
-/

namespace UiDoc.Binary64

open Float.Model Float.Model.UnpackedFloat

variable {m n k : Nat} {e : Int}

theorem twoTo_eq (k : Nat) : twoTo k = 2 ^ k :=
  rfl

theorem log2_mul_two_pow (pos : 0 < n) (k : Nat) : (n * 2 ^ k).log2 = n.log2 + k := by
  have scale : 0 < 2 ^ k := Nat.two_pow_pos k
  have low := Nat.log2_self_le (Nat.pos_iff_ne_zero.1 pos)
  rw [Nat.log2_eq_iff (Nat.pos_iff_ne_zero.1 (Nat.mul_pos pos scale)), Nat.add_right_comm,
    Nat.pow_add, Nat.pow_add _ _ k]
  exact ⟨Nat.mul_le_mul_right _ low, Nat.mul_lt_mul_of_pos_right Nat.lt_log2_self scale⟩

/-- A significand of 53 bits, and an exponent that a double can have with it. -/
structure Normal (m : Nat) (e : Int) : Prop where
  low : 2 ^ 52 ≤ m
  high : m < 2 ^ 53
  least : -1074 ≤ e
  most : e ≤ 971

namespace Normal

theorem pos (normal : Normal m e) : 0 < m :=
  Nat.lt_of_lt_of_le (by decide) normal.low

/-- The pieces of the double `m * 2 ^ e`. -/
def unpacked (normal : Normal m e) : UnpackedFloat :=
  .finite .positive m e normal.pos

/-- The double `m * 2 ^ e`. -/
def float (normal : Normal m e) : Float :=
  .ofModel (.pack normal.unpacked)

/-! ## Rounding -/

theorem log2_eq (normal : Normal m e) : m.log2 = 52 :=
  (Nat.log2_eq_iff (Nat.pos_iff_ne_zero.1 normal.pos)).2 ⟨normal.low, normal.high⟩

theorem target_shifted (normal : Normal m e) (k : Nat) :
    Format.binary64.targetExponent (totalExponent (m * 2 ^ k) (e - k)) = e := by
  have least := normal.least
  rw [totalExponent, log2_mul_two_pow normal.pos, normal.log2_eq]
  simp only [Format.targetExponent, Format.mantissaBits, Format.minExponent]
  omega

theorem shiftRight_shifted (m k : Nat) :
    (⟨m * 2 ^ k, false, false⟩ : ExtendedMantissa) >>> k = ⟨m, false, false⟩ := by
  induction k generalizing m with
  | zero =>
      rw [Nat.pow_zero, Nat.mul_one]
      rfl
  | succ k ih =>
      have shifted := ih (m * 2)
      rw [Nat.mul_assoc, ← Nat.pow_succ'] at shifted
      calc (⟨m * 2 ^ (k + 1), false, false⟩ : ExtendedMantissa) >>> (k + 1)
        _ = ((⟨m * 2 ^ (k + 1), false, false⟩ : ExtendedMantissa) >>> k).shiftRightOne := rfl
        _ = ⟨m, false, false⟩ := by
          rw [shifted]
          simp [ExtendedMantissa.shiftRightOne]

theorem shiftToTargetExponent_shifted (normal : Normal m e) (k : Nat) :
    shiftToTargetExponent Format.binary64 (m * 2 ^ k) (e - k) .exact =
      (⟨m, false, false⟩, e) := by
  have amount : (e - (e - k)).toNat = k := by omega
  rw [shiftToTargetExponent, normal.target_shifted]
  simp only [shiftToExponent, amount, ExtendedMantissa.ofMantissaAndAccuracy, shiftRight_shifted]
  congr 1
  omega

/-- Zeros behind a significand of 53 bits are dropped without any rounding. -/
theorem roundWithAccuracy_shifted (normal : Normal m e) (k : Nat) :
    roundWithAccuracy Format.binary64 .positive (m * 2 ^ k) (e - k) .exact = normal.unpacked := by
  have again := normal.shiftToTargetExponent_shifted 0
  rw [Nat.pow_zero, Nat.mul_one, Int.natCast_zero, Int.sub_zero] at again
  rw [roundWithAccuracy, normal.shiftToTargetExponent_shifted]
  have kept : (⟨m, false, false⟩ : ExtendedMantissa).roundedMantissa = m := rfl
  simp only [kept, again, dif_neg (Nat.pos_iff_ne_zero.1 normal.pos)]
  rfl

theorem round_shifted (normal : Normal m e) (k : Nat) :
    UnpackedFloat.round Format.binary64 .positive (m * 2 ^ k) (e - k) = normal.unpacked := by
  have amount : (e - k - e).toNat = 0 := by omega
  simp only [UnpackedFloat.round, normal.target_shifted, decreaseExponent, amount,
    Nat.shiftLeft_zero, Int.natCast_zero, Int.sub_zero]
  exact normal.roundWithAccuracy_shifted k

/-- A significand of fewer bits is shifted until it has 53 of them. -/
theorem round_short (pos : 0 < n) (normal : Normal m e) (same : n * 2 ^ k = m) :
    UnpackedFloat.round Format.binary64 .positive n (e + k) = normal.unpacked := by
  subst same
  have bits : n.log2 + k = 52 := (log2_mul_two_pow pos k).symm.trans normal.log2_eq
  have target : Format.binary64.targetExponent (totalExponent n (e + k)) = e := by
    have least := normal.least
    simp only [totalExponent, Format.targetExponent, Format.mantissaBits, Format.minExponent]
    omega
  have amount : (e + k - e).toNat = k := by omega
  have exact := normal.roundWithAccuracy_shifted 0
  rw [Nat.pow_zero, Nat.mul_one, Int.natCast_zero, Int.sub_zero] at exact
  simp only [UnpackedFloat.round, target, decreaseExponent, amount, Nat.shiftLeft_eq,
    Int.add_sub_cancel]
  exact exact

/-! ## The bits of a double -/

theorem pack_unpacked (normal : Normal m e) :
    UnpackedFloat.pack Format.binary64 normal.unpacked =
      packComponents Format.binary64 .positive (BitVec.ofNat 11 (e + 1075).toNat)
        (BitVec.ofNat 52 m) := by
  have least := normal.least
  have most := normal.most
  have biased : (e + Format.binary64.exponentBias + (52 : Nat)).toNat = (e + 1075).toNat := by
    simp only [Format.exponentBias]
    omega
  rw [unpacked, UnpackedFloat.pack]
  simp only [biased, normal.log2_eq]
  rw [if_neg (by simp; omega)]
  exact if_pos rfl

theorem toNat_append {i j : Nat} (a : BitVec i) (b : BitVec j) :
    (a ++ b).toNat = a.toNat * 2 ^ j + b.toNat := by
  rw [BitVec.toNat_append, ← Nat.shiftLeft_add_eq_or_of_lt b.isLt, Nat.shiftLeft_eq]

theorem unpack_pack (normal : Normal m e) :
    UnpackedFloat.unpack Format.binary64 (UnpackedFloat.pack Format.binary64 normal.unpacked) =
      normal.unpacked := by
  have least := normal.least
  have most := normal.most
  have low := normal.low
  have high := normal.high
  have biased : (BitVec.ofNat 11 (e + 1075).toNat).toNat = (e + 1075).toNat := by
    rw [BitVec.toNat_ofNat, Nat.mod_eq_of_lt (by omega)]
  have finite : BitVec.ofNat 11 (e + 1075).toNat ≠ -1#11 := fun same => by
    have value := congrArg BitVec.toNat same
    rw [biased] at value
    change (e + 1075).toNat = 2047 at value
    omega
  have ordinary : BitVec.ofNat 11 (e + 1075).toNat ≠ 0#11 := fun same => by
    have value := congrArg BitVec.toNat same
    rw [biased] at value
    change (e + 1075).toNat = 0 at value
    omega
  have leading : (1#1 ++ BitVec.ofNat 52 m).toNat = m := by
    rw [toNat_append, BitVec.toNat_ofNat, BitVec.toNat_ofNat]
    omega
  rw [pack_unpacked, UnpackedFloat.unpack]
  simp only [unpackMantissa_packComponents, unpackExponent_packComponents,
    unpackSign_packComponents, if_neg finite, if_neg ordinary, biased, leading]
  simp only [unpacked, Format.exponentBias]
  congr 1
  omega

theorem unpack_float (normal : Normal m e) : normal.float.toModel.unpack = normal.unpacked :=
  normal.unpack_pack

theorem toBits_float (normal : Normal m e) :
    normal.float.toBits.toNat = (e + 1075).toNat * 2 ^ 52 + m % 2 ^ 52 := by
  have least := normal.least
  have most := normal.most
  have packed : normal.float.toBits.toNat =
      (UnpackedFloat.pack Format.binary64 normal.unpacked).toNat := rfl
  rw [packed, pack_unpacked, packComponents, toNat_append, toNat_append, BitVec.toNat_ofNat,
    BitVec.toNat_ofNat, Nat.mod_eq_of_lt (by omega)]
  simp [Sign.toBitVec]

theorem ofFloat_float (normal : Normal m e) : ofFloat normal.float = .finite false m e := by
  have least := normal.least
  have most := normal.most
  have low := normal.low
  have high := normal.high
  have bits := normal.toBits_float
  have negative : ¬2 ^ 63 ≤ normal.float.toBits.toNat := by omega
  have biased : normal.float.toBits.toNat / 2 ^ 52 % 2 ^ 11 = (e + 1075).toNat := by omega
  have fraction : normal.float.toBits.toNat % 2 ^ 52 = m % 2 ^ 52 := by omega
  simp only [ofFloat, twoTo_eq, negative, biased, fraction, Int.ofNat_eq_natCast]
  rw [if_neg (by omega), if_neg (by omega)]
  congr 1 <;> omega

end Normal

/-! ## Whole numbers -/

/-- How many zeros fill the significand of a whole number up. -/
def zeros (n : Nat) : Nat :=
  52 - n.log2

theorem log2_add_zeros (pos : 0 < n) (small : n < 2 ^ 53) : n.log2 + zeros n = 52 := by
  have bits := (Nat.log2_lt (Nat.pos_iff_ne_zero.1 pos)).2 small
  rw [zeros]
  omega

theorem normal_of_lt (pos : 0 < n) (small : n < 2 ^ 53) :
    Normal (n * 2 ^ zeros n) (-zeros n) := by
  have bits := log2_add_zeros pos small
  have filled : n * 2 ^ zeros n ≠ 0 :=
    Nat.pos_iff_ne_zero.1 (Nat.mul_pos pos (Nat.two_pow_pos _))
  obtain ⟨low, high⟩ := (Nat.log2_eq_iff filled).1 ((log2_mul_two_pow pos _).trans bits)
  exact ⟨low, high, by omega, by omega⟩

/-- However many zeros stand behind a whole number, it is not rounded. -/
theorem round_whole (pos : 0 < n) (small : n < 2 ^ 53) (k : Nat) :
    UnpackedFloat.round Format.binary64 .positive (n * 2 ^ k) (-k) =
      (normal_of_lt pos small).unpacked := by
  have normal := normal_of_lt pos small
  rcases Nat.le_total k (zeros n) with short | long
  · obtain ⟨more, split⟩ := Nat.exists_eq_add_of_le short
    have same : n * 2 ^ k * 2 ^ more = n * 2 ^ zeros n := by
      rw [split, Nat.pow_add, Nat.mul_assoc]
    have exponent : (-k : Int) = -zeros n + more := by omega
    rw [exponent]
    exact normal.round_short (Nat.mul_pos pos (Nat.two_pow_pos k)) same
  · obtain ⟨more, rfl⟩ := Nat.exists_eq_add_of_le long
    have exponent : (-(zeros n + more : Nat) : Int) = -zeros n - more := by omega
    rw [exponent, Nat.pow_add, ← Nat.mul_assoc]
    exact normal.round_shifted more

theorem normalize_whole (pos : 0 < n) (small : n < 2 ^ 53) (k : Nat) :
    UnpackedFloat.normalize Format.binary64 (n * 2 ^ k : Nat) (-k) .positive =
      (normal_of_lt pos small).unpacked := by
  have positive : Ord.compare ((n * 2 ^ k : Nat) : Int) 0 = .gt :=
    Int.compare_eq_gt.2 (Int.natCast_pos.2 (Nat.mul_pos pos (Nat.two_pow_pos k)))
  rw [UnpackedFloat.normalize, positive]
  exact round_whole pos small k

theorem Normal.mul_one (normal : Normal m e) :
    normal.float * Float.ofBits 0x3FF0000000000000 = normal.float := by
  have one : (Float.ofBits 0x3FF0000000000000).toModel.unpack =
      .finite .positive (2 ^ 52) (-52) (by decide) := rfl
  calc normal.float * Float.ofBits 0x3FF0000000000000
    _ = .ofModel (.pack (UnpackedFloat.mul Format.binary64 normal.float.toModel.unpack
          (Float.ofBits 0x3FF0000000000000).toModel.unpack)) := rfl
    _ = .ofModel (.pack (roundWithAccuracy Format.binary64 .positive (m * 2 ^ 52) (e - (52 : Nat))
          .exact)) := by
      rw [one, normal.unpack_float]
      rfl
    _ = normal.float := by
      rw [normal.roundWithAccuracy_shifted]
      rfl

theorem ofNat_eq_float (pos : 0 < n) (small : n < 2 ^ 53) :
    Float.ofNat n = (normal_of_lt pos small).float := by
  have word : n.toUInt64.toNat = n := by
    simp only [Nat.toUInt64, UInt64.toNat_ofNat']
    omega
  calc Float.ofNat n
    _ = n.toUInt64.toFloat * Float.ofBits 0x3FF0000000000000 := by
      exact dif_pos ⟨small, by decide⟩
    _ = .ofModel (.pack (UnpackedFloat.normalize Format.binary64 (n.toUInt64.toNat : Nat) 0
          .positive)) * Float.ofBits 0x3FF0000000000000 := rfl
    _ = (normal_of_lt pos small).float * Float.ofBits 0x3FF0000000000000 := by
      have exact := normalize_whole pos small 0
      rw [Nat.pow_zero, Nat.mul_one, Int.natCast_zero, Int.neg_zero] at exact
      rw [word, exact]
      rfl
    _ = (normal_of_lt pos small).float := Normal.mul_one _

theorem isWhole_shifted (n k : Nat) : isWhole (n * 2 ^ k) (-k) = true := by
  cases k with
  | zero => rfl
  | succ k => exact beq_of_eq (Nat.mul_mod_left n (2 ^ (k + 1)))

theorem wholePart_shifted (n k : Nat) : wholePart (n * 2 ^ k) (-k) = n := by
  cases k with
  | zero => exact (Nat.mul_one _).trans (Nat.mul_one n)
  | succ k => exact Nat.mul_div_cancel n (Nat.two_pow_pos (k + 1))

theorem ofFloat_ofNat (small : n < 2 ^ 53) :
    ∃ k : Nat, ofFloat (Float.ofNat n) = .finite false (n * 2 ^ k) (-k) := by
  rcases Nat.eq_zero_or_pos n with rfl | pos
  · have pieces : ∃ k : Nat, ofFloat (Float.ofNat 0) = .finite false 0 (-k) := ⟨1074, rfl⟩
    simpa only [Nat.zero_mul] using pieces
  · exact ⟨zeros n, by rw [ofNat_eq_float pos small, Normal.ofFloat_float]⟩

theorem decreaseExponent_whole {j k : Nat} (less : j ≤ k) (n : Nat) :
    (decreaseExponent (n * 2 ^ j) (-j) (-k)).1 = n * 2 ^ k := by
  obtain ⟨more, rfl⟩ := Nat.exists_eq_add_of_le less
  have amount : (-(j : Int) - -(j + more : Nat)).toNat = more := by omega
  rw [decreaseExponent, amount, Nat.shiftLeft_eq, Nat.mul_assoc, ← Nat.pow_add]

theorem unpack_zero : (Float.ofNat 0).toModel.unpack = .zero .positive := by
  rfl

/-- Nothing is rounded where whole numbers are added, if their sum is below `2 ^ 53`. -/
theorem ofNat_add_ofNat (small : m + n < 2 ^ 53) :
    Float.ofNat m + Float.ofNat n = Float.ofNat (m + n) := by
  have added : Float.ofNat m + Float.ofNat n = .ofModel (.pack (UnpackedFloat.add Format.binary64
      (Float.ofNat m).toModel.unpack (Float.ofNat n).toModel.unpack)) := rfl
  rw [added]
  rcases Nat.eq_zero_or_pos m with rfl | left
  · rcases Nat.eq_zero_or_pos n with rfl | right
    · rfl
    · rw [Nat.zero_add] at small ⊢
      rw [unpack_zero, ofNat_eq_float right small, Normal.unpack_float]
      rfl
  · rcases Nat.eq_zero_or_pos n with rfl | right
    · rw [Nat.add_zero] at small ⊢
      rw [unpack_zero, ofNat_eq_float left small, Normal.unpack_float]
      rfl
    · rw [ofNat_eq_float left (by omega), ofNat_eq_float right (by omega), Normal.unpack_float,
        Normal.unpack_float, ofNat_eq_float (by omega) small]
      simp only [Normal.unpacked, UnpackedFloat.add]
      have least : min (-zeros m : Int) (-zeros n) = -(max (zeros m) (zeros n) : Nat) := by omega
      rw [least, decreaseExponent_whole (Nat.le_max_left ..),
        decreaseExponent_whole (Nat.le_max_right ..)]
      have sum : Sign.positive.apply (m * 2 ^ max (zeros m) (zeros n) : Nat) +
          Sign.positive.apply (n * 2 ^ max (zeros m) (zeros n) : Nat) =
            ((m + n) * 2 ^ max (zeros m) (zeros n) : Nat) := by
        rw [Nat.add_mul]
        exact (Int.natCast_add ..).symm
      rw [sum, normalize_whole (by omega) small]
      rfl

/-! ## What stands for a whole number -/

theorem toCount_ofNat (small : n < 2 ^ 53) : toCount (Float.ofNat n) = n := by
  obtain ⟨k, pieces⟩ := ofFloat_ofNat small
  simp only [toCount, pieces, wholePart_shifted]
  exact Nat.min_eq_right (by rw [twoTo_eq]; omega)

theorem isInteger_ofNat (small : n < 2 ^ 53) : isInteger (Float.ofNat n) = true := by
  obtain ⟨k, pieces⟩ := ofFloat_ofNat small
  simp only [isInteger, pieces, isWhole_shifted]

theorem toInt64_ofNat (small : n < 2 ^ 53) : toInt64 (Float.ofNat n) = n := by
  obtain ⟨k, pieces⟩ := ofFloat_ofNat small
  simp only [toInt64, pieces, wholePart_shifted, signed, clamp, twoTo_eq]
  simp
  omega

theorem lt_iff (x y : Float) : x < y ↔ x.toModel.unpack.lt y.toModel.unpack = true :=
  decide_eq_true_iff

theorem le_iff (x y : Float) : x ≤ y ↔ x.toModel.unpack.le y.toModel.unpack = true :=
  decide_eq_true_iff

theorem isNaN_ofNat (small : n < 2 ^ 53) : (Float.ofNat n).isNaN = false := by
  rcases Nat.eq_zero_or_pos n with rfl | pos
  · rfl
  · calc (Float.ofNat n).isNaN
      _ = (Float.ofNat n).toModel.unpack.isNaN := rfl
      _ = false := by
        rw [ofNat_eq_float pos small, Normal.unpack_float]
        rfl

theorem not_ofNat_lt_zero (small : n < 2 ^ 53) : ¬Float.ofNat n < 0.0 := by
  rw [lt_iff]
  rcases Nat.eq_zero_or_pos n with rfl | pos
  · exact Bool.false_ne_true
  · rw [ofNat_eq_float pos small, Normal.unpack_float]
    exact Bool.false_ne_true

theorem zero_le_ofNat (small : n < 2 ^ 53) : 0.0 ≤ Float.ofNat n := by
  rw [le_iff]
  rcases Nat.eq_zero_or_pos n with rfl | pos
  · rfl
  · rw [ofNat_eq_float pos small, Normal.unpack_float]
    rfl

theorem abs_ofNat_lt (small : n < 2 ^ 53) : (Float.ofNat n).abs < 9007199254740992.0 := by
  rcases Nat.eq_zero_or_pos n with rfl | pos
  · exact (lt_iff _ _).2 rfl
  · have normal := normal_of_lt pos small
    have same : (Float.ofNat n).abs = normal.float := by
      calc (Float.ofNat n).abs
        _ = .ofModel (.pack (Float.ofNat n).toModel.unpack.abs) := rfl
        _ = normal.float := by
          rw [ofNat_eq_float pos small, Normal.unpack_float]
          rfl
    have limit : (9007199254740992.0 : Float).toModel.unpack =
      .finite .positive (2 ^ 52) 1 (by decide) := rfl
    rw [same, lt_iff, normal.unpack_float, limit, Normal.unpacked]
    have less : Ord.compare (-zeros n : Int) 1 = .lt := Int.compare_eq_lt.2 (by omega)
    simp only [UnpackedFloat.lt, UnpackedFloat.compare, less]
    rfl

end UiDoc.Binary64
