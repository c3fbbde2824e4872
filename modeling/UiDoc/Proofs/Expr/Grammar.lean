import UiDoc.Expr.Parser
import UiDoc.Proofs.Text.Trim

/-!
# How expressions are written

The reader of expressions looks for operators in a text.  What it accepts can be put together again:
from literals and paths, with parentheses and white space around operands and with signs in front of
them and between them.
-/

namespace UiDoc.Expr

mutual

/-- An expression is written like this, if literals and paths are written as `leaf` says. -/
inductive Whole (leaf : List Char → Expr → Prop) : List Char → Expr → Prop where
  | operand {cs : List Char} {e : Expr} : Operand leaf cs e → Whole leaf cs e
  | compare {left right : List Char} {a b : Expr} (comparison : Comparison) :
      Operand leaf left a → Operand leaf right b →
      Whole leaf (left ++ (comparison.sign.toList ++ right)) (.compare comparison a b)
  | fallback {left right : List Char} {a b : Expr} :
      Operand leaf left a → Chain leaf right b →
      Whole leaf (left ++ ('|' :: '|' :: right)) (.fallback a b)

/-- The right side of `||` is written like this. -/
inductive Chain (leaf : List Char → Expr → Prop) : List Char → Expr → Prop where
  | last {cs : List Char} {e : Expr} : Operand leaf cs e → isLeaf e = true → Chain leaf cs e
  | fallback {left right : List Char} {a b : Expr} :
      Operand leaf left a → Chain leaf right b →
      Chain leaf (left ++ ('|' :: '|' :: right)) (.fallback a b)

/-- An operand is written like this. -/
inductive Operand (leaf : List Char → Expr → Prop) : List Char → Expr → Prop where
  | leaf {cs : List Char} {e : Expr} : leaf cs e → Operand leaf cs e
  | paren {cs : List Char} {e : Expr} : Whole leaf cs e → Operand leaf ('(' :: (cs ++ [')'])) e
  | not {cs : List Char} {e : Expr} : Operand leaf cs e → Operand leaf ('!' :: cs) (.not e)
  | padded {lead cs trail : List Char} {e : Expr} :
      (∀ c ∈ lead, Text.isBlank c) → (∀ c ∈ trail, Text.isBlank c) → Operand leaf cs e →
      Operand leaf (lead ++ (cs ++ trail)) e

end

variable {leaf : List Char → Expr → Prop} {cs lead trail : List Char} {e : Expr}

/-! ## What stands around operators -/

section Parts

variable {α : Type} {operator? : List Char → Option (α × List Char)}

/-- A split text is what stands in front of the operator, and the text that starts with it. -/
theorem splitOperator_eq {s : Nesting} {before rest : List Char} {a : α}
    (found : splitOperator operator? s cs = some (before, a, rest)) :
    ∃ tail, cs = before ++ tail ∧ operator? tail = some (a, rest) := by
  induction cs generalizing s before with
  | nil => cases found
  | cons c cs ih =>
      simp only [splitOperator] at found
      split at found
      · rename_i b t operator
        cases found
        refine ⟨c :: cs, rfl, ?_⟩
        split at operator
        · exact operator
        · cases operator
      · obtain ⟨⟨front, further⟩, inner, same⟩ := Option.map_eq_some_iff.1 found
        cases same
        obtain ⟨tail, rfl, starts⟩ := ih inner
        exact ⟨tail, rfl, starts⟩

theorem fallback?_eq {a : Unit} {rest : List Char} (found : fallback? cs = some (a, rest)) :
    cs = '|' :: '|' :: rest := by
  unfold fallback? at found
  split at found
  · cases found
    rfl
  · cases found

theorem dropLeading?_eq {pattern rest : List Char}
    (found : Text.dropLeading? pattern cs = some rest) : cs = pattern ++ rest := by
  induction pattern generalizing cs with
  | nil => exact Option.some.inj found
  | cons p pattern ih =>
      cases cs with
      | nil => cases found
      | cons c cs =>
          simp only [Text.dropLeading?] at found
          split at found
          next same => rw [same, ih found, List.cons_append]
          next => cases found

theorem comparison?_eq {comparison : Comparison} {rest : List Char}
    (found : comparison? cs = some (comparison, rest)) :
    cs = comparison.sign.toList ++ rest := by
  obtain ⟨candidate, -, starts⟩ := List.exists_of_findSome?_eq_some found
  obtain ⟨tail, dropped, same⟩ := Option.map_eq_some_iff.1 starts
  cases same
  exact dropLeading?_eq dropped

theorem enclosed?_eq {inner : List Char} (found : enclosed? cs = some inner) :
    cs = '(' :: (inner ++ [')']) := by
  unfold enclosed? at found
  split at found
  · split at found
    next closes =>
      obtain ⟨front, rfl⟩ := List.getLast?_eq_some_iff.1 closes.1
      rw [List.dropLast_concat] at found
      rw [Option.some.inj found]
    next => cases found
  · cases found

end Parts

/-! ## Reading what is written -/

theorem Operand.led (operand : Operand leaf cs e) (blank : ∀ c ∈ lead, Text.isBlank c) :
    Operand leaf (lead ++ cs) e := by
  have padded : Operand leaf (lead ++ (cs ++ [])) e := .padded blank nofun operand
  rwa [List.append_nil] at padded

theorem Operand.trailed (operand : Operand leaf cs e) (blank : ∀ c ∈ trail, Text.isBlank c) :
    Operand leaf (cs ++ trail) e := by
  have padded : Operand leaf ([] ++ (cs ++ trail)) e := .padded nofun blank operand
  exact padded

theorem Chain.trailed {cs : List Char} {e : Expr} (blank : ∀ c ∈ trail, Text.isBlank c) :
    Chain leaf cs e → Chain leaf (cs ++ trail) e
  | .last operand single => .last (operand.trailed blank) single
  | .fallback left right => by
      rw [List.append_assoc, List.cons_append, List.cons_append]
      exact .fallback left (Chain.trailed blank right)

/-- White space around the right side of `||` belongs to the operands at its ends. -/
theorem Chain.padded (blankLead : ∀ c ∈ lead, Text.isBlank c)
    (blankTrail : ∀ c ∈ trail, Text.isBlank c) (chain : Chain leaf cs e) :
    Chain leaf (lead ++ (cs ++ trail)) e := by
  cases chain with
  | last operand single => exact .last (operand.padded blankLead blankTrail) single
  | fallback left right =>
      rw [List.append_assoc, ← List.append_assoc, List.cons_append, List.cons_append]
      exact .fallback (left.led blankLead) (right.trailed blankTrail)

/-- White space around an expression belongs to the operands at its ends. -/
theorem Whole.padded (blankLead : ∀ c ∈ lead, Text.isBlank c)
    (blankTrail : ∀ c ∈ trail, Text.isBlank c) (whole : Whole leaf cs e) :
    Whole leaf (lead ++ (cs ++ trail)) e := by
  cases whole with
  | operand operand => exact .operand (operand.padded blankLead blankTrail)
  | compare comparison left right =>
      rw [List.append_assoc, List.append_assoc, ← List.append_assoc lead]
      exact .compare comparison (left.led blankLead) (right.trailed blankTrail)
  | fallback left right =>
      rw [List.append_assoc, ← List.append_assoc, List.cons_append, List.cons_append]
      exact .fallback (left.led blankLead) (right.trailed blankTrail)

/-- What is left when white space and parentheses are removed stands for what the text stands
for. -/
theorem Whole.of_bare (whole : Whole leaf (bare cs) e) : Whole leaf cs e := by
  fun_induction bare cs with
  | case1 cs inner enclosed ih =>
      obtain ⟨lead, trail, parts, blankLead, blankTrail⟩ := Text.exists_trim cs
      rw [parts, enclosed?_eq enclosed]
      exact .padded blankLead blankTrail (.operand (.paren (ih whole)))
  | case2 cs plain =>
      obtain ⟨lead, trail, parts, blankLead, blankTrail⟩ := Text.exists_trim cs
      rw [parts]
      exact .padded blankLead blankTrail whole

/-- A text is written like an expression, a chain or an operand if it is what is left of another
text without white space at its ends. -/
theorem Operand.of_trim (operand : Operand leaf (Text.trim cs) e) : Operand leaf cs e := by
  obtain ⟨lead, trail, parts, blankLead, blankTrail⟩ := Text.exists_trim cs
  rw [parts]
  exact .padded blankLead blankTrail operand

theorem Chain.of_trim (chain : Chain leaf (Text.trim cs) e) : Chain leaf cs e := by
  obtain ⟨lead, trail, parts, blankLead, blankTrail⟩ := Text.exists_trim cs
  rw [parts]
  exact .padded blankLead blankTrail chain

/-! ## What is read -/

section Read

variable {left right rest inner : List Char} {comparison : Comparison}

theorem parseChars_of_fallback (filled : bare cs ≠ [])
    (found : splitOperator fallback? {} (bare cs) = some (left, (), right)) :
    parseChars cs = (operand left).bind fun a => (chain right).bind fun b =>
      some (.fallback a b) := by
  rw [parseChars, if_neg filled]
  split
  next found' => cases found.symm.trans found'; rfl
  next none => cases found.symm.trans none

theorem parseChars_of_compare (filled : bare cs ≠ [])
    (plain : splitOperator fallback? {} (bare cs) = none)
    (found : splitOperator comparison? {} (bare cs) = some (left, comparison, right)) :
    parseChars cs = (operand left).bind fun a => (operand right).bind fun b =>
      some (.compare comparison a b) := by
  rw [parseChars, if_neg filled]
  split
  next found' => cases plain.symm.trans found'
  next =>
    split
    next found' => cases found.symm.trans found'; rfl
    next none => cases found.symm.trans none

theorem parseChars_of_operand (filled : bare cs ≠ [])
    (plain : splitOperator fallback? {} (bare cs) = none)
    (plainToo : splitOperator comparison? {} (bare cs) = none) :
    parseChars cs = operand (bare cs) := by
  rw [parseChars, if_neg filled]
  split
  next found => cases plain.symm.trans found
  next =>
    split
    next found => cases plainToo.symm.trans found
    next => rfl

theorem chain_of_fallback
    (found : splitOperator fallback? {} (Text.trim cs) = some (left, (), right)) :
    chain cs = (operand left).bind fun a => (chain right).bind fun b =>
      some (.fallback a b) := by
  rw [chain]
  split
  next found' => cases found.symm.trans found'; rfl
  next none => cases found.symm.trans none

theorem chain_of_operand (plain : splitOperator fallback? {} (Text.trim cs) = none) :
    chain cs = (operand cs).filter isLeaf := by
  rw [chain]
  split
  next found => cases plain.symm.trans found
  next => rfl

theorem operand_of_blank (blank : Text.trim cs = []) : operand cs = none := by
  rw [operand]
  split
  next => rfl
  next trimmed => cases blank.symm.trans trimmed
  next trimmed => cases blank.symm.trans trimmed

/-- The operand behind `!`, which may stand in parentheses. -/
theorem operand_of_not (trimmed : Text.trim cs = '!' :: rest) :
    operand cs = ((enclosed? (Text.trim rest)).elim (operand rest) parseChars).map .not := by
  rw [operand]
  split
  next blank => cases trimmed.symm.trans blank
  next trimmed' =>
    cases trimmed.symm.trans trimmed'
    split
    next enclosed => rw [enclosed]; rfl
    next open_ => rw [open_]; rfl
  next differs trimmed' => cases trimmed.symm.trans trimmed'; exact absurd rfl differs

/-- An operand without a sign, which may stand in parentheses. -/
theorem operand_of_ne {c : Char} {ds : List Char} (differs : c ≠ '!')
    (trimmed : Text.trim cs = c :: ds) :
    operand cs = (enclosed? (c :: ds)).elim (leaf? (c :: ds)) parseChars := by
  rw [operand]
  split
  next blank => cases trimmed.symm.trans blank
  next trimmed' => cases trimmed.symm.trans trimmed'; exact absurd rfl differs
  next trimmed' =>
    cases trimmed.symm.trans trimmed'
    split
    next enclosed => rw [enclosed]; rfl
    next open_ => rw [open_]; rfl

end Read

/-- What is true of expressions, of right sides of `||` and of operands, by the parts that each of
them is read from. -/
structure Inherited (whole chained operated : List Char → Expr → Prop) : Prop where
  fallback {cs left right : List Char} {a b : Expr} :
    splitOperator fallback? {} (bare cs) = some (left, (), right) →
      operated left a → chained right b → whole cs (.fallback a b)
  compare {cs left right : List Char} {comparison : Comparison} {a b : Expr} :
    splitOperator comparison? {} (bare cs) = some (left, comparison, right) →
      operated left a → operated right b → whole cs (.compare comparison a b)
  operand {cs : List Char} {e : Expr} : operated (bare cs) e → whole cs e
  chainFallback {cs left right : List Char} {a b : Expr} :
    splitOperator fallback? {} (Text.trim cs) = some (left, (), right) →
      operated left a → chained right b → chained cs (.fallback a b)
  chainLast {cs : List Char} {e : Expr} : operated cs e → isLeaf e = true → chained cs e
  notParen {cs rest inner : List Char} {e : Expr} :
    Text.trim cs = '!' :: rest → enclosed? (Text.trim rest) = some inner → whole inner e →
      operated cs (.not e)
  not {cs rest : List Char} {e : Expr} :
    Text.trim cs = '!' :: rest → operated rest e → operated cs (.not e)
  paren {cs ds inner : List Char} {e : Expr} :
    Text.trim cs = ds → enclosed? ds = some inner → whole inner e → operated cs e
  leaf {cs ds : List Char} {e : Expr} : Text.trim cs = ds → leaf? ds = some e → operated cs e

/-- What is inherited from the parts is true of whatever is read. -/
theorem Inherited.of_read {whole chained operated : List Char → Expr → Prop}
    (inherited : Inherited whole chained operated) :
    (∀ cs, ∀ e, parseChars cs = some e → whole cs e) ∧
      (∀ cs, ∀ e, chain cs = some e → chained cs e) ∧
        ∀ cs, ∀ e, Expr.operand cs = some e → operated cs e := by
  refine parseChars.mutual_induct _ _ _ ?vacant ?fallback ?compare ?operand ?chainFallback
    ?chainLast ?blank ?notParen ?not ?paren ?leaf
  case vacant =>
    intro cs vacant e read
    rw [parseChars, if_pos vacant] at read
    cases read
  case fallback =>
    intro cs filled left _ right found ihLeft ihRight e read
    rw [parseChars_of_fallback filled found] at read
    obtain ⟨a, readLeft, read⟩ := Option.bind_eq_some_iff.1 read
    obtain ⟨b, readRight, same⟩ := Option.bind_eq_some_iff.1 read
    cases same
    exact inherited.fallback found (ihLeft a readLeft) (ihRight b readRight)
  case compare =>
    intro cs filled plain left comparison right found ihLeft ihRight e read
    rw [parseChars_of_compare filled plain found] at read
    obtain ⟨a, readLeft, read⟩ := Option.bind_eq_some_iff.1 read
    obtain ⟨b, readRight, same⟩ := Option.bind_eq_some_iff.1 read
    cases same
    exact inherited.compare found (ihLeft a readLeft) (ihRight b readRight)
  case operand =>
    intro cs filled plain plainToo ih e read
    rw [parseChars_of_operand filled plain plainToo] at read
    exact inherited.operand (ih e read)
  case chainFallback =>
    intro cs left _ right found ihLeft ihRight e read
    rw [chain_of_fallback found] at read
    obtain ⟨a, readLeft, read⟩ := Option.bind_eq_some_iff.1 read
    obtain ⟨b, readRight, same⟩ := Option.bind_eq_some_iff.1 read
    cases same
    exact inherited.chainFallback found (ihLeft a readLeft) (ihRight b readRight)
  case chainLast =>
    intro cs plain ih e read
    rw [chain_of_operand plain] at read
    obtain ⟨read, single⟩ := Option.filter_eq_some_iff.1 read
    exact inherited.chainLast (ih e read) single
  case blank =>
    intro cs blank e read
    rw [operand_of_blank blank] at read
    cases read
  case notParen =>
    intro cs rest trimmed inner enclosed ih e read
    rw [operand_of_not trimmed, enclosed] at read
    obtain ⟨a, readInner, same⟩ := Option.map_eq_some_iff.1 read
    cases same
    exact inherited.notParen trimmed enclosed (ih a readInner)
  case not =>
    intro cs rest trimmed open_ ih e read
    rw [operand_of_not trimmed, open_] at read
    obtain ⟨a, readRest, same⟩ := Option.map_eq_some_iff.1 read
    cases same
    exact inherited.not trimmed (ih a readRest)
  case paren =>
    intro cs c ds differs trimmed inner enclosed ih e read
    rw [operand_of_ne differs trimmed, enclosed] at read
    exact inherited.paren trimmed enclosed (ih e read)
  case leaf =>
    intro cs c ds differs trimmed open_ e read
    rw [operand_of_ne differs trimmed, open_] at read
    exact inherited.leaf trimmed read

/-- Whatever is read is written like an expression, a right side of `||` or an operand. -/
theorem inherited_written : Inherited (Whole (leaf? · = some ·)) (Chain (leaf? · = some ·))
    (Operand (leaf? · = some ·)) where
  fallback found left right := by
    obtain ⟨tail, parts, sign⟩ := splitOperator_eq found
    apply Whole.of_bare
    rw [parts, fallback?_eq sign]
    exact .fallback left right
  compare found left right := by
    obtain ⟨tail, parts, sign⟩ := splitOperator_eq found
    apply Whole.of_bare
    rw [parts, comparison?_eq sign]
    exact .compare _ left right
  operand operand := .of_bare (.operand operand)
  chainFallback found left right := by
    obtain ⟨tail, parts, sign⟩ := splitOperator_eq found
    apply Chain.of_trim
    rw [parts, fallback?_eq sign]
    exact .fallback left right
  chainLast operand single := .last operand single
  notParen trimmed enclosed inside := by
    apply Operand.of_trim
    rw [trimmed]
    apply Operand.not
    apply Operand.of_trim
    rw [enclosed?_eq enclosed]
    exact .paren inside
  not trimmed operand := by
    apply Operand.of_trim
    rw [trimmed]
    exact .not operand
  paren trimmed enclosed inside := by
    apply Operand.of_trim
    rw [trimmed, enclosed?_eq enclosed]
    exact .paren inside
  leaf trimmed leaf := by
    apply Operand.of_trim
    rw [trimmed]
    exact .leaf leaf

/-- The text of an expression is written like one. -/
theorem whole_of_parse? {text : String} (read : parse? text = some e) :
    Whole (leaf? · = some ·) text.toList e :=
  inherited_written.of_read.1 text.toList e read

end UiDoc.Expr
