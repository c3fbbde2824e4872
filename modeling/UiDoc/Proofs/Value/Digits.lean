import UiDoc.Value
import UiDoc.Proofs.Binary64.Pieces

/-!
# Whole numbers as texts

A number may be stored as an integer or as a double.  The text of a whole number below `10 ^ 21` is
the digits of a signed 64-bit integer: its own digits, unless it is a double beyond the range of
these integers, which has the digits of the end of the range.
-/

namespace UiDoc

namespace Num

/-- The number that is stored, if it is one. -/
def value? : Num → Option ℚ
  | .int n => some n
  | .float x => (Binary64.ofFloat x).value?

/-- The text of an integer has its digits, behind a minus sign if it is negative. -/
theorem ofList_intText (v : Int) : String.ofList (intText v) = v.repr := by
  cases v with
  | ofNat n => rfl
  | negSucc n =>
      rw [← String.toList_inj]
      simp [intText, Int.repr, Nat.repr]

end Num

namespace Binary64

variable {x : Float} {v : Int}

theorem pieces_of_value (value : (ofFloat x).value? = some (v : ℚ)) :
    ∃ negative m e, ofFloat x = .finite negative m e ∧ magnitude m e = v.natAbs ∧
      signed negative v.natAbs = v := by
  cases pieces : ofFloat x with
  | nan => simp [pieces, value?] at value
  | infinite negative => simp [pieces, value?] at value
  | finite negative m e =>
      have nonneg := magnitude_nonneg m e
      simp only [pieces, value?, Option.some.injEq] at value
      refine ⟨negative, m, e, rfl, ?_⟩
      cases negative with
      | false =>
          have same : magnitude m e = (v : ℚ) := by simpa using value
          have sign : 0 ≤ v := by exact_mod_cast same ▸ nonneg
          have absolute : (v.natAbs : Int) = v := Int.natAbs_of_nonneg sign
          exact ⟨by rw [same, ← Int.cast_natCast, absolute], absolute⟩
      | true =>
          have same : magnitude m e = ((-v : Int) : ℚ) := by
            push_cast
            rw [← value]
            simp
          have sign : 0 ≤ -v := by exact_mod_cast same ▸ nonneg
          have absolute : (v.natAbs : Int) = -v := by omega
          refine ⟨by rw [same, ← Int.cast_natCast, absolute], ?_⟩
          simp only [signed, if_true, Int.ofNat_eq_natCast]
          omega

/-- The whole part of a whole double is its number. -/
theorem isInteger_of_value (value : (ofFloat x).value? = some (v : ℚ)) :
    isInteger x = true ∧ toInt64 x = clamp (-2 ^ 63) (2 ^ 63 - 1) v := by
  obtain ⟨negative, m, e, pieces, same, signed⟩ := pieces_of_value value
  obtain ⟨whole, part⟩ := whole_of_magnitude same
  constructor
  · rw [isInteger, pieces]
    exact whole
  · rw [toInt64, pieces]
    simp only [part, signed, twoTo_eq]
    rfl

/-- A double is below the bound if the number that it stands for is. -/
theorem abs_lt_of_value (value : (ofFloat x).value? = some (v : ℚ)) (small : |v| < 10 ^ 21) :
    x.abs < 1e21 := by
  obtain ⟨negative, m, e, pieces, same, -⟩ := pieces_of_value value
  have limit : ofFloat 1e21 = .finite false 7629394531250000 17 := by decide +kernel
  have bound : magnitude 7629394531250000 17 = (10 ^ 21 : Nat) := by norm_num [magnitude]
  refine abs_lt_of_magnitude_lt pieces limit ?_
  rw [same, bound, Nat.cast_lt]
  rw [Int.abs_eq_natAbs] at small
  omega

theorem clamp_eq_self_iff {low high : Int} (order : low ≤ high) :
    clamp low high v = v ↔ low ≤ v ∧ v ≤ high := by
  rw [clamp]
  omega

end Binary64

namespace Value

/-- A whole number below `10 ^ 21`, however it is stored, has its own digits as its text, unless it
is a double that is no signed 64-bit integer; such a double has the digits of the nearest one. -/
theorem text_eq_digits_iff (n : Num) (v : Int) (value : n.value? = some (v : ℚ))
    (small : |v| < 10 ^ 21) :
    (text (some (.num n)) = v.repr ↔ ∀ x, n = .float x → -2 ^ 63 ≤ v ∧ v < 2 ^ 63) ∧
      (∀ x, n = .float x →
        text (some (.num n)) = (Binary64.clamp (-2 ^ 63) (2 ^ 63 - 1) v).repr) ∧
      shown (some (.num n)) = text (some (.num n)) := by
  cases n with
  | int w =>
      obtain rfl : w = v := by
        have same : (w : ℚ) = v := by simpa [Num.value?] using value
        exact_mod_cast same
      have digits : text (some (.num (.int w))) = w.repr := Num.ofList_intText w
      exact ⟨by simp [digits], by simp, rfl⟩
  | float x =>
      obtain ⟨whole, part⟩ := Binary64.isInteger_of_value value
      have less := Binary64.abs_lt_of_value value small
      have digits : text (some (.num (.float x)))
          = (Binary64.clamp (-2 ^ 63) (2 ^ 63 - 1) v).repr := by
        calc text (some (.num (.float x)))
          _ = String.ofList (numText (.float x)) := rfl
          _ = String.ofList (Num.intText (Binary64.toInt64 x)) := by
            rw [numText, whole, decide_eq_true less]
            rfl
          _ = (Binary64.clamp (-2 ^ 63) (2 ^ 63 - 1) v).repr := by
            rw [Num.ofList_intText, part]
      refine ⟨?_, fun _ _ => digits, rfl⟩
      rw [digits, Int.repr_inj, Binary64.clamp_eq_self_iff (by decide)]
      simp
      omega

theorem text_eq_digits_iff_low :
    (Num.float (-1e18)).value? = some ((-10 ^ 18 : Int) : ℚ) ∧
      text (some (.num (.float (-1e18)))) = "-1000000000000000000" := by
  have pieces : Binary64.ofFloat (-1e18) = .finite true 7812500000000000 7 := by decide +kernel
  have value : (Num.float (-1e18)).value? = some ((-10 ^ 18 : Int) : ℚ) := by
    norm_num [Num.value?, pieces, Binary64.value?, Binary64.magnitude]
  have digits : (-10 ^ 18 : Int).repr = "-1000000000000000000" := by decide +kernel
  refine ⟨value, ?_⟩
  rw [← digits]
  exact (text_eq_digits_iff _ _ value (by decide)).1.2 fun _ _ => by decide

/-- The text of a whole double beyond the signed 64-bit integers has the digits of another
number. -/
theorem text_ne_digits :
    (Num.float 1e20).value? = some ((10 ^ 20 : Int) : ℚ) ∧ |(10 ^ 20 : Int)| < 10 ^ 21 ∧
      (10 ^ 20 : Int).repr = "100000000000000000000" ∧
      text (some (.num (.float 1e20))) = "9223372036854775807" := by
  have pieces : Binary64.ofFloat 1e20 = .finite false 6103515625000000 14 := by decide +kernel
  refine ⟨?_, by decide, by decide +kernel, by decide +kernel⟩
  norm_num [Num.value?, pieces, Binary64.value?, Binary64.magnitude]

end Value

end UiDoc
