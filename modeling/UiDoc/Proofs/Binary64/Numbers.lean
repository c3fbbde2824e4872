import UiDoc.Proofs.Binary64.Pieces

/-!
# Doubles that are numbers

A double that is read from a decimal or converted from an integer is a number, and so is the
negative of a number.  Two numbers can be compared, and in the other order they compare the other
way round.
-/

namespace UiDoc.Binary64

open Float.Model Float.Model.UnpackedFloat

variable {x y : Float} {u v : UnpackedFloat}

/-! ## Negation -/

theorem unpack_packComponents_neg (s : Sign) (e : BitVec Format.binary64.exponentBits)
    (m : BitVec Format.binary64.mantissaBitsWithoutImplicit) :
    UnpackedFloat.unpack Format.binary64 (packComponents Format.binary64 (-s) e m) =
      (UnpackedFloat.unpack Format.binary64 (packComponents Format.binary64 s e m)).neg := by
  rw [UnpackedFloat.unpack, UnpackedFloat.unpack]
  simp only [unpackMantissa_packComponents, unpackExponent_packComponents,
    unpackSign_packComponents, Sign.ofBitVec_toBitVec]
  split_ifs <;> rfl

theorem unpack_pack_neg (u : UnpackedFloat) :
    UnpackedFloat.unpack Format.binary64 (UnpackedFloat.pack Format.binary64 u.neg) =
      (UnpackedFloat.unpack Format.binary64 (UnpackedFloat.pack Format.binary64 u)).neg := by
  cases u with
  | notANumber => rfl
  | infinity s => exact unpack_packComponents_neg s _ _
  | zero s => exact unpack_packComponents_neg s _ _
  | finite s m e pos =>
      simp only [UnpackedFloat.neg, UnpackedFloat.pack, packedInfinity]
      split_ifs <;> exact unpack_packComponents_neg s _ _

/-- Negation changes the sign among the pieces of a double and nothing else. -/
theorem unpack_neg (x : Float) : (-x).toModel.unpack = x.toModel.unpack.neg := by
  calc (-x).toModel.unpack
    _ = UnpackedFloat.unpack Format.binary64
          (UnpackedFloat.pack Format.binary64 x.toModel.unpack.neg) := rfl
    _ = x.toModel.unpack.neg := by
      rw [unpack_pack_neg, Float.Model.unpack, pack_unpack_of_valid x.toModel.valid]

theorem isNaN_neg (x : Float) : (-x).isNaN = x.isNaN := by
  have negated : x.toModel.unpack.neg.isNaN = x.toModel.unpack.isNaN := by
    cases x.toModel.unpack <;> rfl
  calc (-x).isNaN
    _ = (-x).toModel.unpack.isNaN := rfl
    _ = x.isNaN := by
      rw [unpack_neg, negated]
      rfl

/-! ## Results that are numbers -/

/-- The bits of a double are those of no number only if all bits of its exponent are set. -/
theorem isNaN_packComponents {s : Sign} {e : BitVec Format.binary64.exponentBits}
    {m : BitVec Format.binary64.mantissaBitsWithoutImplicit} (number : e = -1#_ → m = 0#_) :
    (UnpackedFloat.unpack Format.binary64 (packComponents Format.binary64 s e m)).isNaN =
      false := by
  rw [UnpackedFloat.unpack]
  simp only [unpackMantissa_packComponents, unpackExponent_packComponents]
  split_ifs with ones empty
  · rfl
  · exact absurd (number ones) empty
  · rfl
  · rfl
  · rfl

theorem isNaN_ofModel_pack (number : u.isNaN = false) :
    (Float.ofModel (.pack u)).isNaN = false := by
  change (UnpackedFloat.unpack Format.binary64 (UnpackedFloat.pack Format.binary64 u)).isNaN = false
  cases u with
  | notANumber => cases number
  | infinity | zero => exact isNaN_packComponents fun _ => rfl
  | finite s m e pos =>
      rw [UnpackedFloat.pack]
      split_ifs with large
      · exact isNaN_packComponents fun _ => rfl
      · -- An exponent with all bits set would have been too large.
        refine isNaN_packComponents fun ones => absurd (congrArg BitVec.toNat ones) ?_
        rw [BitVec.toNat_ofNat]
        change _ % 2 ^ 11 ≠ 2047
        change ¬2 ^ 11 ≤ _ at large
        omega
      · exact isNaN_packComponents fun ones => absurd ones (by decide)

theorem isNaN_roundWithAccuracy (s : Sign) (m : Nat) (e : Int) (accuracy : Accuracy) :
    (roundWithAccuracy Format.binary64 s m e accuracy).isNaN = false := by
  rw [roundWithAccuracy]
  simp only
  split_ifs <;> rfl

theorem isNaN_normalize (m : Int) (e : Int) (s : Sign) :
    (UnpackedFloat.normalize Format.binary64 m e s).isNaN = false := by
  rw [UnpackedFloat.normalize]
  split
  · exact isNaN_roundWithAccuracy ..
  · rfl
  · exact isNaN_roundWithAccuracy ..

/-- A number times or by a positive one is a number. -/
theorem isNaN_mul_div (number : u.isNaN = false) (finite : v.isFinite = true)
    (positive : (UnpackedFloat.zero .positive).lt v = true) :
    (UnpackedFloat.mul Format.binary64 u v).isNaN = false ∧
      (UnpackedFloat.div Format.binary64 u v).isNaN = false := by
  cases v with
  | notANumber | infinity => cases finite
  | zero => cases positive
  | finite s m e pos =>
      cases u with
      | notANumber => cases number
      | infinity | zero => exact ⟨rfl, rfl⟩
      | finite => exact ⟨isNaN_roundWithAccuracy .., isNaN_roundWithAccuracy ..⟩

theorem powerOfTen_positive (k : Fin 23) :
    Float.exactlyRepresentablePowersOfTen[k].toModel.unpack.isFinite = true ∧
      (UnpackedFloat.zero .positive).lt
        Float.exactlyRepresentablePowersOfTen[k].toModel.unpack = true := by
  decide +kernel +revert

theorem isNaN_unpacked_ofScientific (m : Nat) (e : Int) :
    (UnpackedFloat.ofScientific Format.binary64 m e).isNaN = false := by
  rw [UnpackedFloat.ofScientific]
  split_ifs
  · rfl
  · rfl
  · rfl
  · exact (isNaN_mul_div rfl rfl rfl).1
  · exact (isNaN_mul_div rfl rfl rfl).2

/-- A double that is read from a decimal is a number. -/
theorem isNaN_ofScientific (m : Nat) (s : Bool) (e : Nat) :
    (Float.ofScientific m s e).isNaN = false := by
  rw [Float.ofScientific]
  split
  · rename_i small
    obtain ⟨finite, positive⟩ := powerOfTen_positive ⟨e, by omega⟩
    have number : m.toUInt64.toFloat.toModel.unpack.isNaN = false :=
      isNaN_ofModel_pack (isNaN_normalize ..)
    obtain ⟨product, quotient⟩ := isNaN_mul_div number finite positive
    cases s with
    | false => exact isNaN_ofModel_pack product
    | true => exact isNaN_ofModel_pack quotient
  · exact isNaN_ofModel_pack (isNaN_unpacked_ofScientific ..)

theorem isNaN_ofInt (n : Int) : (Float.ofInt n).isNaN = false := by
  cases n with
  | ofNat n => exact isNaN_ofScientific n false 0
  | negSucc n => exact (isNaN_neg _).trans (isNaN_ofScientific (n + 1) false 0)

/-! ## Comparison -/

theorem compare_sign_swap (s t : Sign) : Ord.compare t s = (Ord.compare s t).swap := by
  cases s <;> cases t <;> rfl

theorem compare_unpacked_swap (u v : UnpackedFloat) :
    v.compare u = (u.compare v).map Ordering.swap := by
  cases u with
  | notANumber => cases v <;> rfl
  | infinity s =>
      cases v with
      | infinity t => exact congrArg some (compare_sign_swap s t)
      | notANumber | zero | finite => cases s <;> rfl
  | zero s =>
      cases v with
      | infinity t | finite t => cases t <;> rfl
      | notANumber | zero => rfl
  | finite s m e =>
      cases v with
      | infinity t => cases t <;> rfl
      | notANumber => rfl
      | zero => cases s <;> rfl
      | finite t n f =>
          have swapped : (Ord.compare f e).then (Ord.compare n m) =
              ((Ord.compare e f).then (Ord.compare m n)).swap := by
            rw [Ordering.swap_then, Int.compare_swap, Nat.compare_swap]
          cases s <;> cases t <;> simp [UnpackedFloat.compare, swapped]

theorem compare_eq (x y : Float) : compare x y = x.toModel.unpack.compare y.toModel.unpack := by
  have equal : (x == y) = x.toModel.unpack.beq y.toModel.unpack := rfl
  simp only [compare, lt_iff, equal, UnpackedFloat.lt, UnpackedFloat.beq,
    compare_unpacked_swap x.toModel.unpack]
  rcases x.toModel.unpack.compare y.toModel.unpack with _ | (_ | _ | _) <;> rfl

/-- In the other order, two doubles compare the other way round. -/
theorem compare_swap (x y : Float) : compare y x = (compare x y).map Ordering.swap := by
  rw [compare_eq, compare_eq, compare_unpacked_swap]

/-- A double that equals another one is a number. -/
theorem number_and_beq (x y : Float) : (!x.isNaN && x == y) = (x == y) := by
  cases equal : x == y with
  | false => exact Bool.and_false _
  | true =>
      have number : x ≠ Float.nan := (Float.beq_iff_ne_nan_and_eq.1 equal).1
      simpa using number

end UiDoc.Binary64
