import UiDoc.Proofs.Text.Classes
import UiDoc.Text.LetterCase

/-!
# Lower case letters

The lower case of a character is one character or two, none of them white space if the character
is a capital letter, and it starts with `o` for the capital letter `O` only.
-/

namespace UiDoc.Text

variable {c : Char}

/-! ## Runs -/

/-- A character is mapped along the run that it stands in. -/
theorem mapRun_eq_some {n code : Nat} {runs : List CaseRun} (mapped : mapRun n runs = some code) :
    ∃ run ∈ runs, run.first ≤ n ∧ n ≤ run.last ∧ code = (n + run.offset).toNat := by
  induction runs with
  | nil => cases mapped
  | cons run runs ih =>
      rw [mapRun] at mapped
      split at mapped
      case isTrue => cases mapped
      case isFalse begun =>
        split at mapped
        case isTrue within =>
          exact ⟨run, List.mem_cons_self .., Nat.le_of_not_lt begun, within.1,
            (Option.some.inj mapped).symm⟩
        case isFalse =>
          obtain ⟨found, member, image⟩ := ih mapped
          exact ⟨found, List.mem_cons_of_mem _ member, image⟩

/-- The ways in which a character can have its lower case. -/
inductive Lowered (c : Char) : List Char → Prop where
  /-- The character has no lower case other than itself. -/
  | same : Lowered c [c]
  /-- The character is mapped along a run. -/
  | along (run : CaseRun) (member : run ∈ lowerRuns) (begun : run.first ≤ c.toNat)
      (within : c.toNat ≤ run.last) :
      Lowered c [Char.ofNat (c.toNat + run.offset).toNat]
  /-- The character is the capital letter `I` with a dot above. -/
  | dotted : Lowered c ['i', Char.ofNat 0x307]

theorem lowered_lowerChar (c : Char) : Lowered c (lowerChar c) := by
  unfold lowerChar
  split
  case isTrue =>
    split
    case isTrue capital =>
      exact .along ⟨0x41, 0x5A, 1, 32⟩ (List.mem_cons_self ..) capital.1 capital.2
    case isFalse => exact .same
  case isFalse =>
    unfold mapCase
    split
    case h_1 code mapped =>
      obtain ⟨run, member, begun, within, rfl⟩ := mapRun_eq_some mapped
      exact .along run member begun within
    case h_2 =>
      split
      case h_1 codes listed =>
        rw [lowerSequences, List.lookup_cons] at listed
        split at listed
        case h_1 => exact Option.some.inj listed ▸ .dotted
        case h_2 => cases listed
      case h_2 => exact .same

/-! ## Capital letters -/

theorem not_isUpper_of_blank (blank : isBlank c = true) : isUpper c = false := by
  have known : ∀ c ∈ blanks, isUpper c = false := forall_of_all (by decide +kernel)
  exact known c (mem_blanks blank)

theorem toNat_mem_blankCodes (blank : isBlank c = true) : c.toNat ∈ blankCodes := by
  have known : ∀ c ∈ blanks, c.toNat ∈ blankCodes := forall_of_all rfl
  exact known c (mem_blanks blank)

/-- A code point that is none stands for the character zero. -/
theorem toNat_ofNat {n : Nat} (other : (Char.ofNat n).toNat ≠ 0) : (Char.ofNat n).toNat = n := by
  by_cases valid : n.isValidChar
  · have char : Char.ofNat n = Char.ofNatAux n valid := dif_pos valid
    exact congrArg Char.toNat char
  · have zero : (Char.ofNat n).toNat = 0 := congrArg Char.toNat (dif_neg valid)
    exact absurd zero other

namespace Lowered

variable {cs : List Char}

/-- The image of a character along a run is as far away as the run says. -/
theorem code_along {run : CaseRun} {image : Char}
    (same : image = Char.ofNat (c.toNat + run.offset).toNat) (other : image.toNat ≠ 0) :
    (image.toNat : Int) = c.toNat + run.offset := by
  subst same
  have code := toNat_ofNat other
  omega

theorem not_blank (lowered : Lowered c cs) (upper : isUpper c = true) :
    ∀ d ∈ cs, isBlank d = false := by
  cases lowered with
  | same =>
      intro d member
      rw [List.mem_singleton.1 member, Bool.eq_false_iff]
      intro blank
      rw [not_isUpper_of_blank blank] at upper
      cases upper
  | dotted => exact forall_of_all rfl
  | along run member begun within =>
      intro d image
      rw [Bool.eq_false_iff]
      intro blank
      have listed := toNat_mem_blankCodes blank
      have other : d.toNat ≠ 0 := fun zero => absurd (zero ▸ listed) (by decide)
      have code := code_along (List.mem_singleton.1 image) other
      -- No run leads to white space.
      have clear : (lowerRuns.all fun run => blankCodes.all fun code => decide
          ((code : Int) < run.first + run.offset ∨ run.last + run.offset < code)) = true := by
        decide +kernel
      have apart := List.all_eq_true.1 (List.all_eq_true.1 clear run member) d.toNat listed
      rw [decide_eq_true_eq] at apart
      omega

theorem eq_capital_o (lowered : Lowered c cs) (upper : isUpper c = true)
    (first : cs.head? = some 'o') : c = 'O' := by
  cases lowered with
  | same =>
      cases first
      cases upper
  | dotted => cases first
  | along run member begun within =>
      have code := code_along (Option.some.inj first).symm (by decide)
      have only : (lowerRuns.all fun run => decide (run.first + run.offset ≤ 111 →
          111 ≤ run.last + run.offset → run.offset = 32)) = true := by decide +kernel
      have offset := of_decide_eq_true (List.all_eq_true.1 only run member)
      rw [show 'o'.toNat = 111 from rfl] at code
      have same : c.toNat = 79 := by omega
      rw [← Char.ofNat_toNat c, same]

theorem length_bounds (lowered : Lowered c cs) : 1 ≤ cs.length ∧ cs.length ≤ 2 := by
  cases lowered <;> simp

end Lowered

end UiDoc.Text
