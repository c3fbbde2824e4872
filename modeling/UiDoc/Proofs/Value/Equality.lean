import UiDoc.Value
import UiDoc.Proofs.Json.Equality

/-!
# Equality and order of values

Equality without conversion is an equivalence of well-formed values, and equality with conversion is
symmetric and holds wherever the other one does.  Values compare the other way round in the other
order, and if they cannot be compared in one order, they cannot in the other.
-/

namespace UiDoc.Value

variable {a b c : Value}

/-- Whether a value is undefined or well-formed. -/
def wellFormed : Value → Bool
  | none => true
  | some v => v.wellFormed

/-! ## Equality without conversion -/

/-- What makes two values equal without conversion. -/
inductive Equal : Value → Value → Prop where
  | undefined : Equal none none
  | numbers {m n : Num} : (m.toFloat == n.toFloat) = true → Equal (some (.num m)) (some (.num n))
  | data {v w : Json} : (∀ n, v ≠ .num n) → (∀ n, w ≠ .num n) → v.same w = true →
      Equal (some v) (some w)

theorem strictEq_iff : strictEq a b = true ↔ Equal a b := by
  constructor
  · intro equal
    fun_cases strictEq a b with
    | case1 => exact .undefined
    | case2 m n => exact .numbers equal
    | case3 v w other =>
        have same : v.same w = true := by rwa [strictEq] at equal; exact other
        refine .data ?_ ?_ same
        · rintro m rfl
          obtain ⟨n, rfl, -⟩ := Json.same_num.1 same
          exact other m n rfl rfl
        · rintro n rfl
          cases v with
          | num m => exact other m n rfl rfl
          | null | bool | str | arr | obj => simp [Json.same] at same
    | case4 => simp_all [strictEq]
  · rintro (_ | ⟨equal⟩ | ⟨other, -, same⟩)
    · rfl
    · exact equal
    · rw [strictEq]
      · exact same
      · exact fun m _ number _ => other m number

theorem strictEq_refl (a : Value) (sound : a.wellFormed = true) : strictEq a a = true := by
  rw [strictEq_iff]
  match a with
  | none => exact .undefined
  | some (.num n) => exact .numbers (by simpa using Json.isNaN_toFloat sound)
  | some .null | some (.bool _) | some (.str _) | some (.arr _) | some (.obj _) =>
      exact .data nofun nofun (Json.same_refl _ sound)

theorem strictEq_symm (sound : a.wellFormed = true) (sound' : b.wellFormed = true)
    (equal : strictEq a b = true) : strictEq b a = true := by
  rw [strictEq_iff] at *
  cases equal with
  | undefined => exact .undefined
  | numbers equal => exact .numbers (BEq.symm equal)
  | data other other' same => exact .data other' other (Json.same_symm sound sound' same)

theorem strictEq_comm (sound : a.wellFormed = true) (sound' : b.wellFormed = true) :
    strictEq a b = strictEq b a :=
  Bool.eq_iff_iff.2 ⟨strictEq_symm sound sound', strictEq_symm sound' sound⟩

theorem strictEq_trans (equal : strictEq a b = true) (equal' : strictEq b c = true) :
    strictEq a c = true := by
  rw [strictEq_iff] at *
  cases equal with
  | undefined => exact equal'
  | numbers equal =>
      cases equal' with
      | numbers equal' => exact .numbers (BEq.trans equal equal')
      | data other => exact absurd rfl (other _)
  | data other between same =>
      cases equal' with
      | numbers => exact absurd rfl (between _)
      | data _ other' same' => exact .data other other' (Json.same_trans same same')

/-! ## Equality with conversion -/

theorem bothTexts_comm (a b : Value) : bothTexts a b = bothTexts b a := by
  rcases a with _ | (_ | _ | _ | _ | _ | _) <;> rcases b with _ | (_ | _ | _ | _ | _ | _) <;> rfl

theorem looseEq_comm (sound : a.wellFormed = true) (sound' : b.wellFormed = true) :
    looseEq a b = looseEq b a := by
  simp only [looseEq, Binary64.number_and_beq]
  rw [Bool.or_comm, Bool.and_comm (nullish a), Bool.and_comm (scalar a), bothTexts_comm, BEq.comm,
    strictEq_comm sound sound']

theorem looseEq_of_strictEq (equal : strictEq a b = true) : looseEq a b = true := by
  cases strictEq_iff.1 equal with
  | undefined => rfl
  | numbers beq =>
      simp only [looseEq, Binary64.number_and_beq]
      exact beq
  | @data v w other _ same =>
      cases v with
      | num n => exact absurd rfl (other n)
      | null => cases w <;> first | rfl | cases same
      | bool b =>
          cases w with
          | bool c =>
              obtain rfl : b = c := eq_of_beq same
              cases b <;> decide
          | null | num | str | arr | obj => cases same
      | str | arr | obj => cases w <;> first | exact equal | cases same

/-! ## Order -/

theorem compareText_swap (s t : String) : compareText t s = (compareText s t).swap := by
  rcases lt_trichotomy s t with less | rfl | greater
  · simp [compareText, less, less.asymm, less.ne']
  · simp [compareText]
  · simp [compareText, greater, greater.asymm, greater.ne']

theorem compare_swap (a b : Value) : compare b a = (compare a b).map Ordering.swap := by
  fun_cases compare a b with
  | case1 s t => exact congrArg some (compareText_swap s t)
  | case2 _ _ other =>
      rw [compare]
      · exact Binary64.compare_swap _ _
      · exact fun s t first second => other t s second first

/-- Equality and order are coherent. -/
theorem equality_coherent (a b c : Value) (sound : a.wellFormed = true)
    (sound' : b.wellFormed = true) :
    strictEq a a = true ∧ strictEq a b = strictEq b a ∧
      (strictEq a b = true → strictEq b c = true → strictEq a c = true) ∧
      looseEq a b = looseEq b a ∧ (strictEq a b = true → looseEq a b = true) ∧
      compare b a = (compare a b).map Ordering.swap :=
  ⟨strictEq_refl a sound, strictEq_comm sound sound', strictEq_trans, looseEq_comm sound sound',
    looseEq_of_strictEq, compare_swap a b⟩

/-- The order of the fields makes no difference. -/
theorem equality_coherent_reordered :
    let a : Value := some (.obj [("size", .num (.float 0.5)), ("rows", .arr [.int 1, .null])])
    let b : Value := some (.obj [("rows", .arr [.int 1, .null]), ("size", .num (.float 0.5))])
    a.wellFormed = true ∧ b.wellFormed = true ∧ strictEq a b = true ∧ strictEq b a = true ∧
      looseEq a b = true ∧ compare b a = (compare a b).map Ordering.swap := by
  intro a b
  have sound : a.wellFormed = true := by decide +kernel
  have sound' : b.wellFormed = true := by decide +kernel
  have equal : strictEq a b = true := by decide +kernel
  obtain ⟨-, comm, -, -, loose, order⟩ := equality_coherent a b b sound sound'
  exact ⟨sound, sound', equal, comm ▸ equal, loose equal, order⟩

end UiDoc.Value
