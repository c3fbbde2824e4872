import UiDoc.Proofs.Expr.Scanning
import UiDoc.Proofs.Script.Common

/-!
# Reading what is written like an expression

Whatever is read as an expression is written like one.  The converse holds where the searches of the
reader pass passed every literal and every path: then what is written like an expression is read as
this expression.
-/

namespace UiDoc.Expr

open Nesting (level marks)

variable {cs ds lead rest inner : List Char} {c : Char} {e : Expr}

/-! ## What the parts depend on -/

theorem operand_congr (same : Text.trim cs = Text.trim ds) : operand cs = operand ds := by
  cases trimmed : Text.trim cs with
  | nil => exact (operand_of_blank trimmed).trans (operand_of_blank (same ▸ trimmed)).symm
  | cons c rest =>
      by_cases sign : c = '!'
      · subst sign
        exact (operand_of_not trimmed).trans (operand_of_not (same ▸ trimmed)).symm
      · exact (operand_of_ne sign trimmed).trans (operand_of_ne sign (same ▸ trimmed)).symm

theorem chain_congr (same : Text.trim cs = Text.trim ds) : chain cs = chain ds := by
  cases found : splitOperator fallback? {} (Text.trim cs) with
  | none => rw [chain_of_operand found, chain_of_operand (same ▸ found), operand_congr same]
  | some parts => exact (chain_of_fallback found).trans (chain_of_fallback (same ▸ found)).symm

theorem bare_of_enclosed (enclosed : enclosed? (Text.trim cs) = some inner) :
    bare cs = bare inner := by
  rw [bare]
  split
  next found => cases enclosed.symm.trans found; rfl
  next none => cases enclosed.symm.trans none

theorem bare_of_open (open_ : enclosed? (Text.trim cs) = none) : bare cs = Text.trim cs := by
  rw [bare]
  split
  next found => cases open_.symm.trans found
  next => rfl

theorem bare_of_trimmed (trimmed : Text.trim cs = cs) (open_ : enclosed? cs = none) :
    bare cs = cs := by
  rw [bare_of_open, trimmed]
  rwa [trimmed]

theorem parseChars_of_bare (same : bare cs = bare ds) : parseChars cs = parseChars ds := by
  by_cases empty : bare cs = []
  · rw [parseChars, parseChars, if_pos empty, if_pos (same ▸ empty)]
  · have filled : bare ds ≠ [] := same ▸ empty
    cases found : splitOperator fallback? {} (bare cs) with
    | some parts =>
        exact (parseChars_of_fallback empty found).trans
          (parseChars_of_fallback filled (same ▸ found)).symm
    | none =>
        cases foundToo : splitOperator comparison? {} (bare cs) with
        | some parts =>
            exact (parseChars_of_compare empty found foundToo).trans
              (parseChars_of_compare filled (same ▸ found) (same ▸ foundToo)).symm
        | none =>
            rw [parseChars_of_operand empty found foundToo,
              parseChars_of_operand filled (same ▸ found) (same ▸ foundToo), same]

/-- Parentheses around a whole text are left out. -/
theorem parseChars_of_enclosed (enclosed : enclosed? (Text.trim cs) = some inner) :
    parseChars cs = parseChars inner :=
  parseChars_of_bare (bare_of_enclosed enclosed)

/-! ## Literals and paths -/

/-- No literal and no path starts with one of these characters. -/
theorem leaf?_eq_none (foreign : c ∈ ['(', '!', '=']) (cs : List Char) :
    leaf? (c :: cs) = none := by
  have each : ∀ c ∈ ['(', '!', '='], c ∉ ['t', 'f', 'n', 'u'] ∧ c ∉ ['"', '\''] ∧ c ≠ '-' ∧
      c ∉ '.' :: Text.digits ∧ Text.isPlainStart c = false := Text.forall_of_all (by decide)
  obtain ⟨noWord, noQuote, noSign, noDigit, noName⟩ := each c foreign
  rw [leaf?, Script.readLiteral_of_no_word (Script.ne_word_of_head noWord),
    Script.readQuoted_of_head noQuote, Script.readNumber_of_head noSign noDigit]
  simp [PathForm.isPath, noName]

theorem exists_head_of_leaf? (read : leaf? cs = some e) :
    ∃ c rest, cs = c :: rest ∧ c ∉ ['(', '!', '='] := by
  cases cs with
  | nil => cases read
  | cons c rest =>
      refine ⟨c, rest, rfl, fun foreign => ?_⟩
      rw [leaf?_eq_none foreign] at read
      cases read

/-- A literal or a path that is passed over wherever it stands. -/
structure PlainLeaf (cs : List Char) (e : Expr) : Prop where
  read : leaf? cs = some e
  trimmed : Text.trim cs = cs
  shut (n : Nat) : Shut (level n) cs
  balanced : Balanced cs

/-! ## What is written like an expression is passed over -/

theorem shut_of_blank {n : Nat} (blank : ∀ c ∈ cs, Text.isBlank c) : Shut (level n) cs := by
  have each : ∀ c ∈ Text.blanks, c ∉ marks ∧ c ∉ signs := Text.forall_of_all (by decide)
  exact shut_of_plain fun c member => each c (Text.mem_blanks (blank c member))

theorem balanced_of_blank (blank : ∀ c ∈ cs, Text.isBlank c) : Balanced cs := by
  have each : ∀ c ∈ Text.blanks, c ∉ ['"', '\'', '(', ')'] := Text.forall_of_all (by decide)
  exact balanced_of_plain fun c member => each c (Text.mem_blanks (blank c member))

theorem shut_of_trim {n : Nat} (shut : Shut (level n) (Text.trim cs)) : Shut (level n) cs := by
  obtain ⟨lead, trail, parts, blankLead, blankTrail⟩ := Text.exists_trim cs
  rw [parts]
  exact (shut_of_blank blankLead).append (shut.append (shut_of_blank blankTrail))

/-- The text of an operand is passed over, and it does not start like the rest of a comparison. -/
structure PassedOver (cs : List Char) : Prop where
  starts : ∃ c rest, Text.trim cs = c :: rest ∧ c ≠ '='
  shut (n : Nat) : Shut (level n) (Text.trim cs)
  balanced : Balanced cs

/-- The text of an expression is passed over where it stands between brackets. -/
structure PassedInside (cs : List Char) : Prop where
  shut (n : Nat) : Shut (level (n + 1)) cs
  balanced : Balanced cs

theorem PassedOver.inside (passed : PassedOver cs) : PassedInside cs where
  shut n := shut_of_trim (passed.shut (n + 1))
  balanced := passed.balanced

/-- Two operands with a sign between them. -/
theorem PassedInside.join {sign : List Char} (left : PassedInside cs) (right : PassedInside ds)
    (plain : ∀ c ∈ sign, c ∉ marks) : PassedInside (cs ++ (sign ++ ds)) where
  shut n := (left.shut n).append ((shut_inside plain).append (right.shut n))
  balanced := by
    have other : ∀ c ∈ ['"', '\'', '(', ')'], c ∈ marks := Text.forall_of_all (by decide)
    exact left.balanced.append
      ((balanced_of_plain fun c member listed => plain c member (other c listed)).append
        right.balanced)

theorem PassedOver.starts_behind (passed : PassedOver cs) (blank : ∀ c ∈ lead, Text.isBlank c) :
    ∃ c rest, lead ++ Text.trim cs = c :: rest ∧ c ≠ '=' := by
  cases lead with
  | nil => exact passed.starts
  | cons c lead =>
      have noSign : ∀ c ∈ Text.blanks, c ≠ '=' := Text.forall_of_all (by decide)
      exact ⟨c, lead ++ Text.trim cs, rfl,
        noSign c (Text.mem_blanks (blank c (List.mem_cons_self ..)))⟩

theorem PassedOver.not (passed : PassedOver cs) : PassedOver ('!' :: cs) := by
  obtain ⟨c, rest, filled, -⟩ := passed.starts
  obtain ⟨lead, blank, trimmed⟩ :=
    Text.trim_cons (c := '!') (by decide) (by rw [filled]; exact List.cons_ne_nil c rest)
  refine ⟨⟨'!', _, trimmed, by decide⟩, fun n => ?_, ?_⟩
  · rw [trimmed]
    exact ((shut_of_blank blank).append (passed.shut n)).not (passed.starts_behind blank)
  · have sign : ∀ c ∈ ['!'], c ∉ ['"', '\'', '(', ')'] := Text.forall_of_all (by decide)
    exact (balanced_of_plain sign).append passed.balanced

theorem trim_paren (cs : List Char) : Text.trim ('(' :: (cs ++ [')'])) = '(' :: (cs ++ [')']) := by
  apply Text.trim_of_ends
  · intro c first
    cases first
    decide
  · intro c last
    rw [← List.cons_append, List.getLast?_concat] at last
    cases last
    decide

theorem PassedInside.paren (inside : PassedInside cs) : PassedOver ('(' :: (cs ++ [')'])) where
  starts := ⟨'(', _, trim_paren cs, by decide⟩
  shut n := by
    rw [trim_paren]
    exact (inside.shut n).bracketed (by decide) (by decide)
  balanced := inside.balanced.paren

theorem PlainLeaf.passedOver (leaf : PlainLeaf cs e) : PassedOver cs where
  starts := by
    obtain ⟨c, rest, rfl, other⟩ := exists_head_of_leaf? leaf.read
    exact ⟨c, rest, leaf.trimmed, fun same => other (by simp [same])⟩
  shut n := by
    rw [leaf.trimmed]
    exact leaf.shut n
  balanced := leaf.balanced

theorem PassedOver.padded {trail : List Char} (blankLead : ∀ c ∈ lead, Text.isBlank c)
    (blankTrail : ∀ c ∈ trail, Text.isBlank c) (passed : PassedOver cs) :
    PassedOver (lead ++ (cs ++ trail)) where
  starts := by rw [Text.trim_padded blankLead blankTrail]; exact passed.starts
  shut n := by rw [Text.trim_padded blankLead blankTrail]; exact passed.shut n
  balanced := (balanced_of_blank blankLead).append
    (passed.balanced.append (balanced_of_blank blankTrail))

mutual

theorem passedInside_of_whole {cs : List Char} {e : Expr} :
    Whole PlainLeaf cs e → PassedInside cs
  | .operand operand => (passedOver_of_operand operand).inside
  | .compare comparison left right =>
      (passedOver_of_operand left).inside.join (passedOver_of_operand right).inside
        (by cases comparison <;> exact Text.forall_of_all (by decide))
  | .fallback left right =>
      (passedOver_of_operand left).inside.join (passedInside_of_chain right)
        (Text.forall_of_all (by decide) : ∀ c ∈ ['|', '|'], c ∉ marks)

theorem passedInside_of_chain {cs : List Char} {e : Expr} :
    Chain PlainLeaf cs e → PassedInside cs
  | .last operand _ => (passedOver_of_operand operand).inside
  | .fallback left right =>
      (passedOver_of_operand left).inside.join (passedInside_of_chain right)
        (Text.forall_of_all (by decide) : ∀ c ∈ ['|', '|'], c ∉ marks)

theorem passedOver_of_operand {cs : List Char} {e : Expr} :
    Operand PlainLeaf cs e → PassedOver cs
  | .leaf leaf => leaf.passedOver
  | .paren whole => (passedInside_of_whole whole).paren
  | .not operand => (passedOver_of_operand operand).not
  | .padded blankLead blankTrail operand =>
      (passedOver_of_operand operand).padded blankLead blankTrail

end

/-! ## What is written like an expression is read as it -/

theorem ne_nil_of_operand (read : operand cs = some e) : Text.trim cs ≠ [] := by
  intro blank
  rw [operand_of_blank blank] at read
  cases read

/-- An operand that starts with a parenthesis is enclosed by it and its partner. -/
theorem enclosed?_of_operand (read : operand cs = some e) (trimmed : Text.trim cs = '(' :: rest) :
    ∃ inner, enclosed? (Text.trim cs) = some inner ∧ parseChars inner = some e := by
  rw [operand_of_ne (by decide) trimmed, leaf?_eq_none (by decide)] at read
  rw [trimmed]
  cases found : enclosed? ('(' :: rest) with
  | none =>
      rw [found] at read
      cases read
  | some inner =>
      rw [found] at read
      exact ⟨inner, rfl, read⟩

/-- Parentheses around the first of several operands do not enclose them all. -/
theorem enclosed?_operand_append (read : operand cs = some e) (more : rest ≠ []) :
    enclosed? (Text.trim cs ++ rest) = none := by
  cases trimmed : Text.trim cs with
  | nil => exact absurd trimmed (ne_nil_of_operand read)
  | cons c behind =>
      by_cases opens : c = '('
      · subst opens
        obtain ⟨inner, enclosed, -⟩ := enclosed?_of_operand read trimmed
        rw [← trimmed]
        exact enclosed?_append enclosed more
      · exact enclosed?_eq_none opens _

/-- A text in which no operator is found is an operand. -/
theorem parseChars_of_shut (shut : Shut (level 0) (Text.trim cs)) (read : operand cs = some e) :
    parseChars cs = some e := by
  cases enclosed : enclosed? (Text.trim cs) with
  | some inner =>
      -- the parentheses are left out of the whole text, and of the operand
      obtain ⟨found, again, whole⟩ := enclosed?_of_operand read (enclosed?_eq enclosed)
      cases enclosed.symm.trans again
      rw [parseChars_of_enclosed enclosed, whole]
  | none =>
      have same := bare_of_open enclosed
      rw [parseChars_of_operand, same, operand_congr (Text.trim_trim cs), read]
      · rw [same]
        exact ne_nil_of_operand read
      · rw [same]
        exact (shut.passes signed_fallback?).splitOperator_eq_none
      · rw [same]
        exact (shut.passes signed_comparison?).splitOperator_eq_none

/-- A text is an operand if it is an expression, but no operator in it has an operand on its left. -/
theorem operand_of_parseChars (same : bare cs = cs)
    (noFallback : ∀ left right,
      splitOperator fallback? {} cs = some (left, (), right) → operand left = none)
    (noCompare : ∀ left comparison right,
      splitOperator comparison? {} cs = some (left, comparison, right) → operand left = none)
    (read : parseChars cs = some e) : operand cs = some e := by
  have filled : bare cs ≠ [] := by
    intro empty
    rw [parseChars, if_pos empty] at read
    cases read
  cases found : splitOperator fallback? {} cs with
  | some parts =>
      obtain ⟨left, ⟨⟩, right⟩ := parts
      rw [parseChars_of_fallback filled (same.symm ▸ found), noFallback left right found] at read
      cases read
  | none =>
      cases foundToo : splitOperator comparison? {} cs with
      | some parts =>
          obtain ⟨left, comparison, right⟩ := parts
          rw [parseChars_of_compare filled (same.symm ▸ found) (same.symm ▸ foundToo),
            noCompare left comparison right foundToo] at read
          cases read
      | none =>
          rwa [parseChars_of_operand filled (same.symm ▸ found) (same.symm ▸ foundToo),
            same] at read

theorem comparison?_sign (comparison : Comparison) (starts : ∃ c rest, cs = c :: rest ∧ c ≠ '=') :
    comparison? (comparison.sign.toList ++ cs) = some (comparison, cs) := by
  obtain ⟨c, rest, rfl, differs⟩ := starts
  cases comparison <;>
    simp [comparison?, comparisonIn, comparisons, Comparison.sign, Text.dropLeading?, differs.symm]

/-- The sign of a comparison is passed over in the search for `||`. -/
theorem passes_sign (comparison : Comparison) :
    Passes fallback? (level 0) comparison.sign.toList ∧
      (level 0).after comparison.sign.toList = level 0 := by
  have each : ∀ c ∈ comparison.sign.toList, c ≠ '|' ∧ c ∉ marks := by
    cases comparison <;> exact Text.forall_of_all (by decide)
  generalize comparison.sign.toList = sign at each ⊢
  induction sign with
  | nil => exact ⟨passes_nil, rfl⟩
  | cons c sign ih =>
      obtain ⟨⟨other, plain⟩, each⟩ := List.forall_mem_cons.1 each
      have stays := Nesting.next_level_of_not_mem (n := 0) plain
      obtain ⟨passes, same⟩ := ih each
      refine ⟨.cons (fun _ rest => ?_) (by rw [stays]; exact passes), ?_⟩
      · unfold fallback?
        split
        next found => exact absurd (List.cons.inj found).1 other
        next => rfl
      · rw [Nesting.after_cons, stays, same]

section Operators

variable {a b : Expr}

/-- The text of operands with a sign between them, without white space around it. -/
theorem exists_bare_between {sign : List Char} (signed : sign ≠ []) (readLeft : operand cs = some a)
    (filled : Text.trim ds ≠ []) :
    ∃ trail lead, (∀ c ∈ trail, Text.isBlank c) ∧ (∀ c ∈ lead, Text.isBlank c) ∧
      bare (cs ++ (sign ++ ds)) = (Text.trim cs ++ trail) ++ (sign ++ (lead ++ Text.trim ds)) := by
  obtain ⟨trail, lead, blankTrail, blankLead, trimmed⟩ :=
    Text.exists_trim_between (ne_nil_of_operand readLeft) filled sign
  refine ⟨trail, lead, blankTrail, blankLead, ?_⟩
  rw [bare_of_open, trimmed]
  rw [trimmed, List.append_assoc]
  exact enclosed?_operand_append readLeft (by simp [signed])

theorem operand_trailed {trail : List Char} (blank : ∀ c ∈ trail, Text.isBlank c) :
    operand (Text.trim cs ++ trail) = operand cs :=
  operand_congr (by rw [Text.trim_append_right blank, Text.trim_trim])

theorem operand_led (blank : ∀ c ∈ lead, Text.isBlank c) :
    operand (lead ++ Text.trim cs) = operand cs :=
  operand_congr (by rw [Text.trim_append_left blank, Text.trim_trim])

theorem parseChars_compare (comparison : Comparison) (left : PassedOver cs) (right : PassedOver ds)
    (readLeft : operand cs = some a) (readRight : operand ds = some b) :
    parseChars (cs ++ (comparison.sign.toList ++ ds)) = some (.compare comparison a b) := by
  have signed : comparison.sign.toList ≠ [] :=
    List.ne_nil_of_length_pos (sign_length_pos comparison)
  obtain ⟨trail, lead, blankTrail, blankLead, whole⟩ :=
    exists_bare_between signed readLeft (ne_nil_of_operand readRight)
  have shutLeft : Shut (level 0) (Text.trim cs ++ trail) :=
    (left.shut 0).append (shut_of_blank blankTrail)
  have shutRight : Shut (level 0) (lead ++ Text.trim ds) :=
    (shut_of_blank blankLead).append (right.shut 0)
  have noFallback :
      splitOperator fallback? {} (bare (cs ++ (comparison.sign.toList ++ ds))) = none := by
    obtain ⟨passes, same⟩ := passes_sign comparison
    rw [whole]
    apply Passes.splitOperator_eq_none
    refine (shutLeft.passes signed_fallback?).append ?_
    rw [shutLeft.after]
    refine passes.append ?_
    rw [same]
    exact shutRight.passes signed_fallback?
  have found : splitOperator comparison? {} (bare (cs ++ (comparison.sign.toList ++ ds))) =
      some (Text.trim cs ++ trail, comparison, lead ++ Text.trim ds) := by
    rw [whole]
    exact (shutLeft.passes signed_comparison?).splitOperator_eq_some shutLeft.after
      (by simp [signed]) (comparison?_sign comparison (right.starts_behind blankLead))
  rw [parseChars_of_compare (by simp [whole, signed]) noFallback found, operand_trailed blankTrail,
    operand_led blankLead, readLeft, readRight]
  rfl

theorem ne_nil_of_chain (read : chain cs = some b) : Text.trim cs ≠ [] := by
  intro blank
  have none : splitOperator fallback? {} (Text.trim cs) = none := by
    rw [blank]
    rfl
  rw [chain_of_operand none, operand_of_blank blank] at read
  cases read

theorem splitOperator_fallback {trail : List Char} (left : PassedOver cs)
    (blank : ∀ c ∈ trail, Text.isBlank c) (ds : List Char) :
    splitOperator fallback? {} ((Text.trim cs ++ trail) ++ (['|', '|'] ++ ds)) =
      some (Text.trim cs ++ trail, (), ds) := by
  have shut : Shut (level 0) (Text.trim cs ++ trail) := (left.shut 0).append (shut_of_blank blank)
  exact (shut.passes signed_fallback?).splitOperator_eq_some shut.after (by simp) rfl

theorem chain_led (blank : ∀ c ∈ lead, Text.isBlank c) : chain (lead ++ Text.trim cs) = chain cs :=
  chain_congr (by rw [Text.trim_append_left blank, Text.trim_trim])

theorem parseChars_fallback (left : PassedOver cs) (readLeft : operand cs = some a)
    (readRight : chain ds = some b) :
    parseChars (cs ++ (['|', '|'] ++ ds)) = some (.fallback a b) := by
  obtain ⟨trail, lead, blankTrail, blankLead, whole⟩ :=
    exists_bare_between (List.cons_ne_nil '|' ['|']) readLeft (ne_nil_of_chain readRight)
  have found := splitOperator_fallback left blankTrail (lead ++ Text.trim ds)
  rw [← whole] at found
  rw [parseChars_of_fallback (by rw [whole]; simp) found, operand_trailed blankTrail,
    chain_led blankLead, readLeft, readRight]
  rfl

theorem chain_fallback (left : PassedOver cs) (readLeft : operand cs = some a)
    (readRight : chain ds = some b) :
    chain (cs ++ (['|', '|'] ++ ds)) = some (.fallback a b) := by
  obtain ⟨trail, lead, blankTrail, blankLead, whole⟩ := Text.exists_trim_between
    (ne_nil_of_operand readLeft) (ne_nil_of_chain readRight) ['|', '|']
  have found := splitOperator_fallback left blankTrail (lead ++ Text.trim ds)
  rw [← whole] at found
  rw [chain_of_fallback found, operand_trailed blankTrail, chain_led blankLead, readLeft, readRight]
  rfl

theorem chain_last (passed : PassedOver cs) (read : operand cs = some e)
    (single : isLeaf e = true) : chain cs = some e := by
  rw [chain_of_operand, read, Option.filter_some, if_pos single]
  exact ((passed.shut 0).passes signed_fallback?).splitOperator_eq_none

theorem operand_leaf (read : leaf? cs = some e) (trimmed : Text.trim cs = cs) :
    operand cs = some e := by
  obtain ⟨c, rest, rfl, other⟩ := exists_head_of_leaf? read
  simp only [List.mem_cons, List.not_mem_nil, or_false, not_or] at other
  rw [operand_of_ne other.2.1 trimmed, enclosed?_eq_none other.1]
  exact read

theorem operand_paren (inside : PassedInside cs) (read : parseChars cs = some e) :
    operand ('(' :: (cs ++ [')'])) = some e := by
  rw [operand_of_ne (by decide) (trim_paren cs), enclosed?_paren inside.balanced]
  exact read

theorem operand_not (read : operand cs = some e) : operand ('!' :: cs) = some (.not e) := by
  obtain ⟨lead, blank, trimmed⟩ := Text.trim_cons (c := '!') (by decide) (ne_nil_of_operand read)
  have same : Text.trim (lead ++ Text.trim cs) = Text.trim cs := by
    rw [Text.trim_append_left blank, Text.trim_trim]
  rw [operand_of_not trimmed, same, operand_congr same]
  cases enclosed : enclosed? (Text.trim cs) with
  | none => exact congrArg (Option.map Expr.not) read
  | some inner =>
      obtain ⟨found, again, whole⟩ := enclosed?_of_operand read (enclosed?_eq enclosed)
      cases enclosed.symm.trans again
      exact congrArg (Option.map Expr.not) whole

end Operators

mutual

/-- What is written like an expression is read as this expression, if all its literals and paths are
passed over. -/
theorem parseChars_of_whole {cs : List Char} {e : Expr} :
    Whole PlainLeaf cs e → parseChars cs = some e
  | .operand operand =>
      parseChars_of_shut ((passedOver_of_operand operand).shut 0) (operand_of_operand operand)
  | .compare comparison left right =>
      parseChars_compare comparison (passedOver_of_operand left) (passedOver_of_operand right)
        (operand_of_operand left) (operand_of_operand right)
  | .fallback left right =>
      parseChars_fallback (passedOver_of_operand left) (operand_of_operand left)
        (chain_of_chain right)

theorem chain_of_chain {cs : List Char} {e : Expr} : Chain PlainLeaf cs e → chain cs = some e
  | .last operand single =>
      chain_last (passedOver_of_operand operand) (operand_of_operand operand) single
  | .fallback left right =>
      chain_fallback (passedOver_of_operand left) (operand_of_operand left) (chain_of_chain right)

theorem operand_of_operand {cs : List Char} {e : Expr} :
    Operand PlainLeaf cs e → operand cs = some e
  | .leaf leaf => operand_leaf leaf.read leaf.trimmed
  | .paren whole => operand_paren (passedInside_of_whole whole) (parseChars_of_whole whole)
  | .not operand => operand_not (operand_of_operand operand)
  | .padded blankLead blankTrail operand =>
      (operand_congr (Text.trim_padded blankLead blankTrail _)).trans (operand_of_operand operand)

end

end UiDoc.Expr
