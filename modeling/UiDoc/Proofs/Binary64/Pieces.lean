import UiDoc.Proofs.Binary64.Whole

/-!
# The pieces of a double

The pieces into which a double is taken apart are those that arithmetic works on, and the number
that they stand for is exact.  Pieces of doubles are in order exactly if their numbers are.
-/

namespace UiDoc.Binary64

open Float.Model Float.Model.UnpackedFloat

variable {m m' : Nat} {e e' : Int} {x : Float}

/-! ## The bits behind the pieces -/

theorem toNat_unpackMantissa (bits : BitVec Format.binary64.numBits) :
    (unpackMantissa bits).toNat = bits.toNat % 2 ^ 52 := by
  simp [unpackMantissa, BitVec.extractLsb_toNat]

theorem toNat_unpackExponent (bits : BitVec Format.binary64.numBits) :
    (unpackExponent bits).toNat = bits.toNat / 2 ^ 52 % 2 ^ 11 := by
  simp [unpackExponent, BitVec.extractLsb_toNat, Nat.shiftRight_eq_div_pow]

theorem toNat_unpackSign (bits : BitVec Format.binary64.numBits) :
    (unpackSign bits).toNat = bits.toNat / 2 ^ 63 % 2 := by
  simp [unpackSign, BitVec.extractLsb_toNat, Nat.shiftRight_eq_div_pow]

/-- The sign that stands for being negative or not. -/
def sign (negative : Bool) : Sign :=
  if negative then .negative else .positive

/-- The pieces on which arithmetic works. -/
def unpacked : Binary64 → UnpackedFloat
  | .nan => .notANumber
  | .infinite negative => .infinity (sign negative)
  | .finite negative m e => if pos : 0 < m then .finite (sign negative) m e pos
      else .zero (sign negative)

theorem ofBitVec_unpackSign (bits : BitVec Format.binary64.numBits) :
    Sign.ofBitVec (unpackSign bits) = sign (decide (2 ^ 63 ≤ bits.toNat)) := by
  have small : bits.toNat < 2 ^ 64 := bits.isLt
  have zero : unpackSign bits = 0#1 ↔ ¬ 2 ^ 63 ≤ bits.toNat := by
    rw [← BitVec.toNat_inj, toNat_unpackSign]
    simp only [BitVec.toNat_ofNat]
    omega
  by_cases negative : 2 ^ 63 ≤ bits.toNat
  · rw [Sign.ofBitVec, if_neg fun same => zero.1 same negative, decide_eq_true negative]
    rfl
  · rw [Sign.ofBitVec, if_pos (zero.2 negative), decide_eq_false negative]
    rfl

/-- Arithmetic works on the pieces into which a double is taken apart. -/
theorem unpack_toModel (x : Float) : x.toModel.unpack = (ofFloat x).unpacked := by
  obtain ⟨bits, same⟩ : ∃ bits : BitVec Format.binary64.numBits, bits = x.toModel.toBits.toBitVec :=
    ⟨_, rfl⟩
  have word : x.toBits.toNat = bits.toNat := same ▸ rfl
  have ones : unpackExponent bits = -BitVec.ofNat Format.binary64.exponentBits 1 ↔
      bits.toNat / 2 ^ 52 % 2 ^ 11 = 2047 := by
    rw [← BitVec.toNat_inj, toNat_unpackExponent]
    rfl
  have zeros : unpackExponent bits = BitVec.ofNat Format.binary64.exponentBits 0 ↔
      bits.toNat / 2 ^ 52 % 2 ^ 11 = 0 := by
    rw [← BitVec.toNat_inj, toNat_unpackExponent]
    rfl
  have empty : unpackMantissa bits = BitVec.ofNat Format.binary64.mantissaBitsWithoutImplicit 0 ↔
      bits.toNat % 2 ^ 52 = 0 := by
    rw [← BitVec.toNat_inj, toNat_unpackMantissa]
    rfl
  have bias : ((Format.binary64.exponentBias +
      Format.binary64.mantissaBitsWithoutImplicit : Nat) : Int) = 1075 := rfl
  have leading : (1#1 ++ unpackMantissa bits).toNat = 2 ^ 52 + bits.toNat % 2 ^ 52 := by
    rw [Normal.toNat_append, toNat_unpackMantissa]
    rfl
  rw [Float.Model.unpack, ← same, UnpackedFloat.unpack, ofFloat]
  simp only [word, twoTo_eq, ofBitVec_unpackSign, ones, zeros, empty]
  by_cases high : bits.toNat / 2 ^ 52 % 2 ^ 11 = 2047
  · simp only [high, if_true]
    by_cases none : bits.toNat % 2 ^ 52 = 0
    · simp only [none, if_true, unpacked]
    · simp only [none, if_false, unpacked]
  · simp only [high, if_false]
    by_cases low : bits.toNat / 2 ^ 52 % 2 ^ 11 = 0
    · simp only [low, if_true, unpacked, toNat_unpackExponent, toNat_unpackMantissa]
      by_cases none : bits.toNat % 2 ^ 52 = 0
      · rw [dif_pos none, dif_neg (by omega)]
      · rw [dif_neg none, dif_pos (by omega)]
        rfl
    · simp only [low, if_false, unpacked, toNat_unpackExponent, leading]
      rw [dif_pos (by omega)]
      rfl

/-! ## The pieces that a double can have -/

/-- The pieces of a finite double: a significand of 53 bits, or a shorter one with the least
exponent. -/
structure Fits (m : Nat) (e : Int) : Prop where
  high : m < 2 ^ 53
  least : -1074 ≤ e
  most : e ≤ 971
  full : e ≠ -1074 → 2 ^ 52 ≤ m

theorem fits_of_ofFloat {negative : Bool} (pieces : ofFloat x = .finite negative m e) :
    Fits m e := by
  have fraction : x.toBits.toNat % 2 ^ 52 < 2 ^ 52 := Nat.mod_lt _ (by decide)
  have biased : x.toBits.toNat / 2 ^ 52 % 2 ^ 11 < 2 ^ 11 := Nat.mod_lt _ (by decide)
  rw [ofFloat] at pieces
  split at pieces
  · split at pieces <;> cases pieces
  · split at pieces
    · cases pieces
      exact ⟨by rw [twoTo_eq]; omega, by omega, by omega, by omega⟩
    · cases pieces
      simp only [twoTo_eq, Int.ofNat_eq_natCast] at *
      exact ⟨by omega, by omega, by omega, by omega⟩

theorem unpacked_of_pos (pos : 0 < m) :
    (finite false m e).unpacked = .finite .positive m e pos :=
  dif_pos pos

/-- Pieces survive being packed and unpacked again. -/
theorem Fits.unpack_pack (fits : Fits m e) :
    UnpackedFloat.unpack Format.binary64
      (UnpackedFloat.pack Format.binary64 (finite false m e).unpacked) =
        (finite false m e).unpacked := by
  by_cases pos : 0 < m
  · rw [unpacked_of_pos pos]
    by_cases full : 2 ^ 52 ≤ m
    · exact Normal.unpack_pack ⟨full, fits.high, fits.least, fits.most⟩
    · obtain rfl : e = -1074 := by_contra fun other => full (fits.full other)
      have short : m.log2 < 52 := (Nat.log2_lt (Nat.pos_iff_ne_zero.1 pos)).2 (by omega)
      have kept : (BitVec.ofNat 52 m).toNat = m := by
        rw [BitVec.toNat_ofNat, Nat.mod_eq_of_lt (by omega)]
      have filled : BitVec.ofNat 52 m ≠ 0#52 := fun same => by
        have value := congrArg BitVec.toNat same
        rw [kept] at value
        exact Nat.pos_iff_ne_zero.1 pos value
      have packed : UnpackedFloat.pack Format.binary64 (.finite .positive m (-1074) pos) =
          packComponents Format.binary64 .positive (0#11) (BitVec.ofNat 52 m) := by
        have biased : (-1074 + (Format.binary64.exponentBias : Int) +
            (Format.binary64.mantissaBitsWithoutImplicit : Int)).toNat = 1 := by decide
        have bits : Format.binary64.mantissaBits = 53 := by decide
        rw [UnpackedFloat.pack]
        simp only [biased, bits]
        rw [if_neg (by decide), if_neg (by omega)]
      rw [packed, UnpackedFloat.unpack]
      simp only [unpackMantissa_packComponents, unpackExponent_packComponents,
        unpackSign_packComponents]
      rw [if_neg (by decide), if_pos trivial, dif_neg filled]
      simp only [kept]
      rfl
  · obtain rfl : m = 0 := by omega
    have zero : (finite false 0 e).unpacked = .zero .positive := rfl
    rw [zero]
    rfl

/-- The pieces of a double without its sign. -/
theorem unpack_abs {negative : Bool} (pieces : ofFloat x = .finite negative m e) :
    x.abs.toModel.unpack = (finite false m e).unpacked := by
  have positive : (ofFloat x).unpacked.abs = (finite false m e).unpacked := by
    rw [pieces]
    by_cases pos : 0 < m
    · rw [unpacked_of_pos pos, unpacked, dif_pos pos]
      rfl
    · obtain rfl : m = 0 := by omega
      rfl
  calc x.abs.toModel.unpack
    _ = UnpackedFloat.unpack Format.binary64
          (UnpackedFloat.pack Format.binary64 x.toModel.unpack.abs) := rfl
    _ = (finite false m e).unpacked := by
      rw [unpack_toModel, positive, (fits_of_ofFloat pieces).unpack_pack]

/-! ## The number that the pieces stand for -/

/-- The number `m * 2 ^ e`. -/
def magnitude (m : Nat) (e : Int) : ℚ :=
  m * 2 ^ e

/-- The number that a double stands for, if it stands for one. -/
def value? : Binary64 → Option ℚ
  | .finite negative m e => some (if negative then -magnitude m e else magnitude m e)
  | _ => none

theorem magnitude_nonneg (m : Nat) (e : Int) : 0 ≤ magnitude m e := by
  unfold magnitude
  positivity

/-- Of two doubles the one with the greater exponent is not the smaller one. -/
theorem Fits.lt_of_magnitude_lt (fits : Fits m e) (fits' : Fits m' e')
    (less : magnitude m e < magnitude m' e') : e < e' ∨ e = e' ∧ m < m' := by
  rcases lt_trichotomy e e' with lower | rfl | higher
  · exact .inl lower
  · refine .inr ⟨rfl, ?_⟩
    have scale : (0 : ℚ) < 2 ^ e := by positivity
    exact_mod_cast lt_of_mul_lt_mul_right less scale.le
  · exfalso
    obtain ⟨k, rfl⟩ : ∃ k : Nat, e = e' + 1 + k := ⟨(e - e' - 1).toNat, by omega⟩
    have full : 2 ^ 52 ≤ m := fits.full (by have := fits'.least; omega)
    have high := fits'.high
    have scale : (0 : ℚ) < 2 ^ e' := by positivity
    have split : magnitude m (e' + 1 + k) = (m * 2 * 2 ^ k : Nat) * 2 ^ e' := by
      rw [magnitude, zpow_add₀ two_ne_zero, zpow_add₀ two_ne_zero, zpow_natCast]
      push_cast
      ring
    rw [split, magnitude] at less
    have less : m * 2 * 2 ^ k < m' := by exact_mod_cast lt_of_mul_lt_mul_right less scale.le
    have := Nat.le_mul_of_pos_right (m * 2) (Nat.two_pow_pos k)
    omega

/-- Doubles compare as the numbers that they stand for. -/
theorem abs_lt_of_magnitude_lt {y : Float} {negative : Bool}
    (pieces : ofFloat x = .finite negative m e) (limit : ofFloat y = .finite false m' e')
    (less : magnitude m e < magnitude m' e') : x.abs < y := by
  have pos' : 0 < m' := by
    by_contra zero
    obtain rfl : m' = 0 := by omega
    have nonneg := magnitude_nonneg m e
    rw [magnitude, magnitude, Nat.cast_zero, zero_mul] at less
    exact absurd less (not_lt_of_ge nonneg)
  rw [lt_iff, unpack_abs pieces, unpack_toModel, limit, unpacked_of_pos pos']
  by_cases pos : 0 < m
  · rw [unpacked_of_pos pos]
    rcases (fits_of_ofFloat pieces).lt_of_magnitude_lt (fits_of_ofFloat limit) less with
      lower | ⟨rfl, lower⟩
    · simp [UnpackedFloat.lt, UnpackedFloat.compare, Int.compare_eq_lt.2 lower]
    · simp [UnpackedFloat.lt, UnpackedFloat.compare, Nat.compare_eq_lt.2 lower]
  · obtain rfl : m = 0 := by omega
    rfl

/-- A double whose pieces stand for a whole number has that number as its whole part. -/
theorem whole_of_magnitude {n : Nat} (same : magnitude m e = n) :
    isWhole m e = true ∧ wholePart m e = n := by
  cases e with
  | ofNat k =>
      refine ⟨rfl, ?_⟩
      have same : ((m * 2 ^ k : Nat) : ℚ) = n := by
        simpa [magnitude] using same
      exact_mod_cast same
  | negSucc k =>
      have filled : m = n * 2 ^ (k + 1) := by
        rw [magnitude, zpow_negSucc, mul_inv_eq_iff_eq_mul₀ (by positivity)] at same
        exact_mod_cast same
      rw [isWhole, wholePart, twoTo_eq, filled]
      exact ⟨by simp, Nat.mul_div_cancel n (Nat.two_pow_pos _)⟩

end UiDoc.Binary64
