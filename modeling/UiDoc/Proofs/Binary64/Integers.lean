import UiDoc.Proofs.Binary64.Numbers

/-!
# Doubles and integers

The whole part of a finite double is the number that it stands for, rounded towards zero, and a
double that is converted from a small integer stands for that integer.  The whole part of a large
double is even.
-/

namespace UiDoc.Binary64

open Float.Model Float.Model.UnpackedFloat

variable {x : Float} {q : ℚ} {m n : Nat} {e : Int}

/-! ## Whole parts -/

/-- The whole part of a number, rounded towards zero. -/
def towardsZero (q : ℚ) : Int :=
  if 0 ≤ q then ⌊q⌋ else ⌈q⌉

@[simp] theorem towardsZero_intCast (v : Int) : towardsZero (v : ℚ) = v := by
  simp [towardsZero]

theorem floor_magnitude (m : Nat) (e : Int) : ⌊magnitude m e⌋ = (wholePart m e : Int) := by
  cases e with
  | ofNat k =>
      have whole : magnitude m (.ofNat k) = (m * 2 ^ k : Nat) := by simp [magnitude]
      rw [whole, Int.floor_natCast]
      rfl
  | negSucc k =>
      have ratio : magnitude m (.negSucc k) = (m : ℚ) / (2 ^ (k + 1) : Nat) := by
        rw [magnitude, zpow_negSucc, div_eq_mul_inv]
        push_cast
        rfl
      rw [ratio, Rat.floor_natCast_div_natCast]
      rfl

theorem towardsZero_magnitude (negative : Bool) (m : Nat) (e : Int) :
    towardsZero (if negative then -magnitude m e else magnitude m e) =
      signed negative (wholePart m e) := by
  have nonneg := magnitude_nonneg m e
  have whole := floor_magnitude m e
  cases negative with
  | false => simpa [towardsZero, signed, nonneg] using whole
  | true =>
      simp only [towardsZero, signed, if_true, Int.ofNat_eq_natCast, Int.ceil_neg, whole]
      split_ifs with zero
      · have none : magnitude m e = 0 := by linarith
        rw [none, Int.floor_zero] at whole
        rw [none, neg_zero, Int.floor_zero, ← whole]
        rfl
      · rfl

theorem pieces_of_value? (value : (ofFloat x).value? = some q) :
    ∃ negative m e, ofFloat x = .finite negative m e ∧
      towardsZero q = signed negative (wholePart m e) := by
  cases pieces : ofFloat x with
  | nan | infinite => simp [pieces, value?] at value
  | finite negative m e =>
      simp only [pieces, value?, Option.some.injEq] at value
      exact ⟨negative, m, e, rfl, value ▸ towardsZero_magnitude negative m e⟩

theorem isFinite_iff : x.isFinite = true ↔ ∃ q, (ofFloat x).value? = some q := by
  have same : x.isFinite = (ofFloat x).unpacked.isFinite := by
    rw [← unpack_toModel]
    rfl
  rw [same]
  cases ofFloat x with
  | nan | infinite => simp [unpacked, UnpackedFloat.isFinite, value?]
  | finite negative m e =>
      simp only [unpacked, value?]
      split_ifs <;> simp [UnpackedFloat.isFinite]

theorem toInt64_of_value? (value : (ofFloat x).value? = some q) :
    toInt64 x = clamp (-2 ^ 63) (2 ^ 63 - 1) (towardsZero q) := by
  obtain ⟨negative, m, e, pieces, same⟩ := pieces_of_value? value
  rw [toInt64, pieces, same]
  rfl

/-- A significand has too few bits for a large whole number, so that zeros stand behind it. -/
theorem two_dvd_wholePart (fits : Fits m e) (large : 2 ^ 63 ≤ wholePart m e) :
    2 ∣ wholePart m e := by
  have high := fits.high
  cases e with
  | ofNat k =>
      have far : 10 < k := by
        by_contra near
        have scale : 2 ^ k ≤ 2 ^ 10 := Nat.pow_le_pow_right (by decide) (by omega)
        have small : m * 2 ^ k < 2 ^ 53 * 2 ^ 10 :=
          Nat.mul_lt_mul_of_lt_of_le high scale (by decide)
        exact absurd large (Nat.not_le.2 small)
      exact (dvd_pow_self 2 (by omega)).mul_left m
  | negSucc k =>
      have small : m / 2 ^ (k + 1) ≤ m := Nat.div_le_self ..
      change 2 ^ 63 ≤ m / 2 ^ (k + 1) at large
      omega

theorem two_dvd_towardsZero (value : (ofFloat x).value? = some q)
    (large : 2 ^ 63 ≤ |towardsZero q|) : 2 ∣ towardsZero q := by
  obtain ⟨negative, m, e, pieces, same⟩ := pieces_of_value? value
  have even := two_dvd_wholePart (fits_of_ofFloat pieces)
  rw [same] at large ⊢
  cases negative <;> simp [signed] at large ⊢ <;> omega

/-! ## The number that a double stands for -/

/-- The pieces of the negative. -/
def neg : Binary64 → Binary64
  | .nan => .nan
  | .infinite negative => .infinite !negative
  | .finite negative m e => .finite (!negative) m e

theorem unpacked_neg (a : Binary64) : a.neg.unpacked = a.unpacked.neg := by
  cases a with
  | nan => rfl
  | infinite negative => cases negative <;> rfl
  | finite negative m e =>
      simp only [neg, unpacked]
      split_ifs <;> cases negative <;> rfl

theorem value?_neg (a : Binary64) : a.neg.value? = a.value?.map (- ·) := by
  cases a with
  | nan | infinite => rfl
  | finite negative m e => cases negative <;> simp [neg, value?]

/-- The number that the pieces on which arithmetic works stand for. -/
def unpackedValue? : UnpackedFloat → Option ℚ
  | .notANumber | .infinity _ => none
  | .zero _ => some 0
  | .finite s m e _ => some (if s == .negative then -magnitude m e else magnitude m e)

theorem unpackedValue?_unpacked (a : Binary64) : unpackedValue? a.unpacked = a.value? := by
  cases a with
  | nan | infinite => rfl
  | finite negative m e =>
      rw [unpacked]
      split_ifs with pos
      · cases negative <;> rfl
      · obtain rfl : m = 0 := by omega
        simp [unpackedValue?, value?, magnitude]

theorem value?_ofFloat_neg (x : Float) : (ofFloat (-x)).value? = (ofFloat x).value?.map (- ·) := by
  calc (ofFloat (-x)).value?
    _ = unpackedValue? (ofFloat x).neg.unpacked := by
      rw [← unpackedValue?_unpacked, ← unpack_toModel, unpack_neg, unpack_toModel, unpacked_neg]
    _ = (ofFloat x).value?.map (- ·) := by
      rw [unpackedValue?_unpacked, value?_neg]

theorem value?_ofNat (small : n < 2 ^ 53) : (ofFloat (Float.ofNat n)).value? = some (n : ℚ) := by
  obtain ⟨k, pieces⟩ := ofFloat_ofNat small
  simp [pieces, value?, magnitude]

/-- A small integer is converted without rounding. -/
theorem value?_ofInt (v : Int) (small : v.natAbs < 2 ^ 53) :
    (ofFloat (Float.ofInt v)).value? = some (v : ℚ) := by
  cases v with
  | ofNat n => exact value?_ofNat small
  | negSucc n =>
      have small : n + 1 < 2 ^ 53 := small
      have negated : Float.ofInt (.negSucc n) = -Float.ofNat (n + 1) := rfl
      rw [negated, value?_ofFloat_neg, value?_ofNat small, Int.cast_negSucc]
      rfl

end UiDoc.Binary64
