import UiDoc.Proofs.Expr.Grammar
import UiDoc.Proofs.Text.Classes

/-!
# Searches in the text of an expression

An operator is looked for where no bracket and no quote is open, and a parenthesis for the one that
closes it.  Both searches pass over a text that closes whatever it opens, if no sign of an operator
stands in it outside of brackets and quotes.
-/

namespace UiDoc.Expr

variable {α : Type} {operator? : List Char → Option (α × List Char)} {s : Nesting} {n : Nat}
  {cs ds rest inner body : List Char} {c mark : Char}

/-! ## What is open behind a text -/

namespace Nesting

/-- So many brackets are open, and no quote. -/
def level (n : Nat) : Nesting :=
  { depth := n }

theorem level_zero : level 0 = {} := rfl

/-- Behind some more characters. -/
def after (s : Nesting) (cs : List Char) : Nesting :=
  cs.foldl next s

@[simp] theorem after_nil (s : Nesting) : s.after [] = s := rfl

@[simp] theorem after_cons (s : Nesting) (c : Char) (cs : List Char) :
    s.after (c :: cs) = (s.next c).after cs := rfl

@[simp] theorem after_append (s : Nesting) (cs ds : List Char) :
    s.after (cs ++ ds) = (s.after cs).after ds :=
  List.foldl_append ..

/-- The characters that open or close something. -/
def marks : List Char :=
  ['"', '\'', '`', '(', '[', '{', ')', ']', '}']

theorem next_level_of_not_mem (plain : c ∉ marks) : (level n).next c = level n := by
  simp only [marks, List.mem_cons, List.not_mem_nil, or_false, not_or] at plain
  simp [next, level, plain]

theorem next_level_open (opens : c ∈ ['(', '[', '{']) : (level n).next c = level (n + 1) := by
  simp only [List.mem_cons, List.not_mem_nil, or_false] at opens
  rcases opens with rfl | rfl | rfl <;> simp [next, level]

theorem next_level_close (closes : c ∈ [')', ']', '}']) : (level (n + 1)).next c = level n := by
  simp only [List.mem_cons, List.not_mem_nil, or_false] at closes
  rcases closes with rfl | rfl | rfl <;> simp [next, level]

theorem not_outside_level (n : Nat) : (level (n + 1)).outside = false := by
  have filled : (n : Int) + 1 ≠ 0 := by omega
  simp [outside, level, filled]

end Nesting

open Nesting (level marks)

/-! ## Searching for operators -/

/-- The characters with which signs of operators start. -/
def signs : List Char :=
  ['|', '=', '!', '<', '>']

/-- The operators that are recognised start with one of these characters, and `!` in front of an
operand is none of them. -/
structure Signed (operator? : List Char → Option (α × List Char)) : Prop where
  other {c : Char} (plain : c ∉ signs) (cs : List Char) : operator? (c :: cs) = none
  not {c : Char} (differs : c ≠ '=') (cs : List Char) : operator? ('!' :: c :: cs) = none

theorem signed_fallback? : Signed fallback? where
  other plain cs := by
    unfold fallback?
    split
    next starts =>
      cases starts
      exact absurd (by decide) plain
    next => rfl
  not _ _ := rfl

theorem signed_comparison? : Signed comparison? where
  other {c} plain cs := by
    simp only [signs, List.mem_cons, List.not_mem_nil, or_false, not_or] at plain
    simp [comparison?, comparisonIn, comparisons, Comparison.sign, Text.dropLeading?, Ne.symm, *]
  not {c} differs cs := by
    simp [comparison?, comparisonIn, comparisons, Comparison.sign, Text.dropLeading?, Ne.symm, *]

/-- In front of the operator that is found nothing is open. -/
theorem outside_of_splitOperator {before : List Char} {a : α}
    (found : splitOperator operator? s cs = some (before, a, rest)) :
    (s.after before).outside = true := by
  induction cs generalizing s before with
  | nil => cases found
  | cons c cs ih =>
      simp only [splitOperator] at found
      split at found
      next here =>
        cases found
        split at here
        next outside => exact outside
        next => cases here
      next =>
        obtain ⟨⟨front, further⟩, inner, same⟩ := Option.map_eq_some_iff.1 found
        cases same
        have behind := ih inner
        exact behind

/-- The search for an operator finds nothing in a text, whatever stands behind the text. -/
def Passes (operator? : List Char → Option (α × List Char)) (s : Nesting) (cs : List Char) : Prop :=
  ∀ rest, splitOperator operator? s (cs ++ rest) =
    (splitOperator operator? (s.after cs) rest).map fun (before, found) => (cs ++ before, found)

theorem passes_nil : Passes operator? s [] := by
  intro rest
  simp

theorem Passes.append (first : Passes operator? s cs) (second : Passes operator? (s.after cs) ds) :
    Passes operator? s (cs ++ ds) := by
  intro rest
  rw [List.append_assoc, first, second, Nesting.after_append, Option.map_map]
  simp [Function.comp_def]

theorem Passes.cons (nothing : s.outside = true → ∀ rest, operator? (c :: (cs ++ rest)) = none)
    (tail : Passes operator? (s.next c) cs) : Passes operator? s (c :: cs) := by
  intro rest
  have here : (if s.outside then operator? (c :: (cs ++ rest)) else none) = none := by
    split
    next outside => exact nothing outside rest
    next => rfl
  rw [List.cons_append, splitOperator, here]
  simp only
  rw [tail, Option.map_map, Nesting.after_cons]
  simp [Function.comp_def]

/-- Nothing is found in a text in which nothing is found. -/
theorem Passes.splitOperator_eq_none (passes : Passes operator? s cs) :
    splitOperator operator? s cs = none := by
  have whole := passes []
  rwa [List.append_nil, splitOperator, Option.map_none] at whole

/-- An operator behind a text in which nothing is found is the first one. -/
theorem Passes.splitOperator_eq_some {a : α} (passes : Passes operator? (level 0) cs)
    (closed : (level 0).after cs = level 0) (filled : ds ≠ [])
    (found : operator? ds = some (a, rest)) :
    splitOperator operator? {} (cs ++ ds) = some (cs, a, rest) := by
  have outside : (level 0).outside = true := rfl
  have whole := passes ds
  cases ds with
  | nil => exact absurd rfl filled
  | cons c ds =>
      rw [closed, splitOperator, outside, if_pos rfl, found] at whole
      simpa [Nesting.level_zero] using whole

/-- A text closes whatever it opens, and the search for an operator finds nothing in it. -/
structure Shut (s : Nesting) (cs : List Char) : Prop where
  after : s.after cs = s
  passes {α : Type} {operator? : List Char → Option (α × List Char)} (signed : Signed operator?) :
    Passes operator? s cs

theorem shut_nil : Shut s [] where
  after := rfl
  passes _ := passes_nil

theorem Shut.append (first : Shut s cs) (second : Shut s ds) : Shut s (cs ++ ds) where
  after := by rw [Nesting.after_append, first.after, second.after]
  passes signed := (first.passes signed).append (by rw [first.after]; exact second.passes signed)

theorem Shut.cons (stays : s.next c = s) (noSign : s.outside = true → c ∉ signs)
    (shut : Shut s cs) : Shut s (c :: cs) where
  after := by rw [Nesting.after_cons, stays, shut.after]
  passes signed := .cons (fun outside rest => signed.other (noSign outside) _)
    (by rw [stays]; exact shut.passes signed)

/-- What stands between two characters that open and close something is out of sight. -/
theorem Shut.enclosed {t : Nesting} {opening closing : Char} (opens : s.next opening = t)
    (closes : t.next closing = s) (inside : t.outside = false)
    (noSign : s.outside = true → opening ∉ signs) (shut : Shut t cs) :
    Shut s (opening :: (cs ++ [closing])) := by
  refine ⟨?_, fun signed => .cons (fun outside rest => signed.other (noSign outside) _) ?_⟩
  · rw [Nesting.after_cons, opens, Nesting.after_append, shut.after, Nesting.after_cons, closes,
      Nesting.after_nil]
  · rw [opens]
    refine (shut.passes signed).append ?_
    rw [shut.after]
    refine .cons (fun outside => ?_) passes_nil
    rw [inside] at outside
    cases outside

theorem shut_of_plain (plain : ∀ c ∈ cs, c ∉ marks ∧ c ∉ signs) : Shut (level n) cs := by
  induction cs with
  | nil => exact shut_nil
  | cons c cs ih =>
      obtain ⟨⟨noMark, noSign⟩, plain⟩ := List.forall_mem_cons.1 plain
      exact .cons (Nesting.next_level_of_not_mem noMark) (fun _ => noSign) (ih plain)

/-- Between brackets signs are no operators. -/
theorem shut_inside (plain : ∀ c ∈ cs, c ∉ marks) : Shut (level (n + 1)) cs := by
  induction cs with
  | nil => exact shut_nil
  | cons c cs ih =>
      obtain ⟨noMark, plain⟩ := List.forall_mem_cons.1 plain
      refine .cons (Nesting.next_level_of_not_mem noMark) (fun outside => ?_) (ih plain)
      rw [Nesting.not_outside_level] at outside
      cases outside

theorem Shut.bracketed {opening closing : Char} (opens : opening ∈ ['(', '[', '{'])
    (closes : closing ∈ [')', ']', '}']) (shut : Shut (level (n + 1)) cs) :
    Shut (level n) (opening :: (cs ++ [closing])) := by
  have noSign : ∀ c ∈ ['(', '[', '{'], c ∉ signs := Text.forall_of_all (by decide)
  exact shut.enclosed (Nesting.next_level_open opens) (Nesting.next_level_close closes)
    (Nesting.not_outside_level n) fun _ => noSign _ opens

/-- The operand of `!` does not start like the rest of a comparison. -/
theorem Shut.not (shut : Shut (level n) cs) (starts : ∃ c rest, cs = c :: rest ∧ c ≠ '=') :
    Shut (level n) ('!' :: cs) where
  after := by rw [Nesting.after_cons, Nesting.next_level_of_not_mem (by decide), shut.after]
  passes signed := by
    obtain ⟨c, rest, rfl, differs⟩ := starts
    refine .cons (fun _ behind => signed.not differs _) ?_
    rw [Nesting.next_level_of_not_mem (by decide)]
    exact shut.passes signed

/-! ## Texts between quotes -/

/-- Whether a backslash at the end of a text has nothing behind it that it could stand for. -/
def endsInEscape : List Char → Bool
  | [] => false
  | ['\\'] => true
  | '\\' :: _ :: cs => endsInEscape cs
  | _ :: cs => endsInEscape cs

/-- In quotes nothing is opened or closed. -/
theorem shut_body {depth : Int} (noQuote : hasBareQuote mark body = false)
    (complete : endsInEscape body = false) : Shut { depth, quote := some mark } body := by
  induction body using hasBareQuote.induct with
  | case1 => exact shut_nil
  | case2 c cs ih =>
      have escape : Shut { depth, quote := some mark } ('\\' :: ([] ++ [c])) :=
        Shut.enclosed (t := { depth, quote := some mark, escaped := true }) (by simp [Nesting.next])
          (by simp [Nesting.next]) rfl nofun shut_nil
      exact escape.append (ih noQuote complete)
  | case3 c cs other ih =>
      have noEscape : c ≠ '\\' := by
        rintro rfl
        cases cs with
        | nil => cases complete
        | cons d cs => exact other d cs rfl rfl
      have parts : (c == mark) = false ∧ hasBareQuote mark cs = false := by
        rw [hasBareQuote] at noQuote
        · exact Bool.or_eq_false_iff.1 noQuote
        · exact other
      have differs : c ≠ mark := by simpa using parts.1
      refine .cons (by simp [Nesting.next, noEscape, differs]) nofun (ih parts.2 ?_)
      rwa [endsInEscape] at complete
      · exact fun same => absurd same noEscape
      · exact fun _ _ same => absurd same noEscape

theorem shut_quoted (quote : mark ∈ ['"', '\'']) (noQuote : hasBareQuote mark body = false)
    (complete : endsInEscape body = false) : Shut (level n) (mark :: (body ++ [mark])) := by
  have plain : ∀ c ∈ ['"', '\''], c ∉ signs ∧ c ≠ '\\' := Text.forall_of_all (by decide)
  have opens : (level n).next mark = { depth := n, quote := some mark } := by
    simp only [List.mem_cons, List.not_mem_nil, or_false] at quote
    rcases quote with rfl | rfl <;> rfl
  have closes : Nesting.next { depth := n, quote := some mark } mark = level n := by
    simp [Nesting.next, level, (plain mark quote).2]
  exact (shut_body noQuote complete).enclosed opens closes rfl fun _ => (plain mark quote).1

/-! ## Searching for the parenthesis that closes -/

/-- The search for a closing parenthesis, with one open already, passes over a text. -/
def Balanced (cs : List Char) : Prop :=
  ∀ depth rest, closesAtEnd (depth + 1) none (cs ++ rest) = closesAtEnd (depth + 1) none rest

theorem balanced_nil : Balanced [] :=
  fun _ _ => rfl

theorem Balanced.append (first : Balanced cs) (second : Balanced ds) : Balanced (cs ++ ds) :=
  fun depth rest => by rw [List.append_assoc, first, second]

theorem balanced_of_plain (plain : ∀ c ∈ cs, c ∉ ['"', '\'', '(', ')']) : Balanced cs := by
  induction cs with
  | nil => exact balanced_nil
  | cons c cs ih =>
      obtain ⟨other, plain⟩ := List.forall_mem_cons.1 plain
      simp only [List.mem_cons, List.not_mem_nil, or_false, not_or] at other
      intro depth rest
      rw [List.cons_append, closesAtEnd, if_neg (by simp [other]), if_neg (by simp [other]),
        if_neg (by simp [other]), ih plain]

theorem Balanced.paren (balanced : Balanced cs) : Balanced ('(' :: (cs ++ [')'])) := by
  intro depth rest
  rw [List.cons_append, closesAtEnd, if_neg (by decide), if_pos rfl, List.append_assoc, balanced,
    List.singleton_append, closesAtEnd, if_neg (by decide), if_neg (by decide), if_pos rfl,
    if_neg (by simp)]
  rfl

theorem closesAtEnd_quoted (noQuote : mark ∉ body) (depth : Nat) :
    closesAtEnd depth (some mark) (body ++ mark :: rest) = closesAtEnd depth none rest := by
  induction body with
  | nil => rw [List.nil_append, closesAtEnd, if_pos rfl]
  | cons c body ih =>
      obtain ⟨differs, noQuote⟩ := List.ne_and_not_mem_of_not_mem_cons noQuote
      rw [List.cons_append, closesAtEnd, if_neg differs.symm, ih noQuote]

theorem balanced_quoted (quote : mark ∈ ['"', '\'']) (noQuote : mark ∉ body) :
    Balanced (mark :: (body ++ [mark])) := by
  intro depth rest
  have either : mark = '"' ∨ mark = '\'' := by simpa using quote
  rw [List.cons_append, closesAtEnd, if_pos either, List.append_assoc, List.singleton_append,
    closesAtEnd_quoted noQuote]

theorem enclosed?_eq_none (other : c ≠ '(') (cs : List Char) : enclosed? (c :: cs) = none := by
  unfold enclosed?
  split
  next same => exact absurd (List.cons.inj same).1 other
  next => rfl

theorem enclosed?_paren (balanced : Balanced cs) : enclosed? ('(' :: (cs ++ [')'])) = some cs := by
  have closes : closesAtEnd 1 none (cs ++ [')']) = true := balanced 0 [')']
  rw [enclosed?, if_pos ⟨List.getLast?_concat, closes⟩, List.dropLast_concat]

/-- A parenthesis that closes at the end of a text does not close at the end of a longer one. -/
theorem closesAtEnd_append {depth : Nat} {quote : Option Char} (opened : depth ≠ 0)
    (more : rest ≠ []) (closes : closesAtEnd depth quote cs = true) :
    closesAtEnd depth quote (cs ++ rest) = false := by
  induction cs generalizing depth quote with
  | nil => exact absurd (by simpa [closesAtEnd] using closes) opened
  | cons c cs ih =>
      cases quote with
      | some mark => exact ih opened closes
      | none =>
          rw [List.cons_append]
          unfold closesAtEnd at closes ⊢
          split
          next quote => exact ih opened (by rwa [if_pos quote] at closes)
          next noQuote =>
            rw [if_neg noQuote] at closes
            split
            next opens => exact ih (by omega) (by rwa [if_pos opens] at closes)
            next noOpening =>
              rw [if_neg noOpening] at closes
              split
              next shuts =>
                rw [if_pos shuts] at closes
                split
                next => rfl
                next inner =>
                  have deeper : depth ≠ 1 := fun one => inner ⟨one, by simp [more]⟩
                  rw [if_neg fun both => deeper both.1] at closes
                  exact ih (by omega) closes
              next other => exact ih opened (by rwa [if_neg other] at closes)

theorem closesAtEnd_of_enclosed? (enclosed : enclosed? ('(' :: cs) = some inner) :
    closesAtEnd 1 none cs = true := by
  rw [enclosed?] at enclosed
  split at enclosed
  next both => exact both.2
  next => cases enclosed

theorem enclosed?_append (enclosed : enclosed? cs = some inner) (more : rest ≠ []) :
    enclosed? (cs ++ rest) = none := by
  obtain rfl := enclosed?_eq enclosed
  have closes := closesAtEnd_append Nat.one_ne_zero more (closesAtEnd_of_enclosed? enclosed)
  rw [List.cons_append, enclosed?, if_neg]
  rintro ⟨-, both⟩
  rw [closes] at both
  cases both

end UiDoc.Expr
