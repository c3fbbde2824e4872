import UiDoc.Expr.Parser
import UiDoc.Proofs.Expr.Scanning
import UiDoc.Proofs.Script.Common

/-!
# Keys and texts in an expression

Between the quotes of a key a backslash stands for itself, and between those of a text it hides the
next character.  Outside of quotes the parentheses of an expression close each other.
-/

namespace UiDoc.Expr

variable {cs ds : List Char} {c mark : Char}

/-- Where a character of an expression stands. -/
inductive Region where
  /-- Outside of quotes. -/
  | code
  /-- Behind an opening bracket, perhaps with white space. -/
  | bracket
  /-- Between the quotes of a key. -/
  | key (mark : Char)
  /-- Between the quotes of a text. -/
  | text (mark : Char)
  /-- Behind a backslash in a text. -/
  | escape (mark : Char)
  deriving DecidableEq, Repr

namespace Region

/-- The quote that ends a region. -/
def quote? : Region → Option Char
  | code | bracket => none
  | key mark | text mark | escape mark => some mark

/-- Behind one more character. -/
def next (c : Char) : Region → Region
  | code => if c = '"' ∨ c = '\'' then text c else if c = '[' then bracket else code
  | bracket =>
      if c = '"' ∨ c = '\'' then key c else if Text.isBlank c then bracket else code
  | key mark => if c = mark then code else key mark
  | text mark => if c = mark then code else if c = '\\' then escape mark else text mark
  | escape mark => text mark

/-- Behind some more characters. -/
def after (r : Region) (cs : List Char) : Region :=
  cs.foldl (fun r c => r.next c) r

/-- Whether a backslash hides the quote that would end the text it stands in. -/
def hidesQuote : Region → List Char → Bool
  | _, [] => false
  | r, c :: cs => r == escape c || hidesQuote (r.next c) cs

/-- The number of parentheses that are open behind a text, if `depth` of them are open in front of
it and none is closed that is not open. -/
def nested : Region → Nat → List Char → Option Nat
  | _, depth, [] => some depth
  | r, depth, c :: cs =>
      if r.quote? = none ∧ c = '(' then nested (r.next c) (depth + 1) cs
      else if r.quote? = none ∧ c = ')' then
        if depth = 0 then none else nested (r.next c) (depth - 1) cs
      else nested (r.next c) depth cs

variable {r : Region} {depth n : Nat}

@[simp] theorem after_nil (r : Region) : r.after [] = r := rfl

@[simp] theorem after_cons (r : Region) (c : Char) (cs : List Char) :
    r.after (c :: cs) = (r.next c).after cs := rfl

@[simp] theorem after_append (r : Region) (cs ds : List Char) :
    r.after (cs ++ ds) = (r.after cs).after ds :=
  List.foldl_append ..

theorem hidesQuote_append (r : Region) (cs ds : List Char) :
    hidesQuote r (cs ++ ds) = (hidesQuote r cs || hidesQuote (r.after cs) ds) := by
  induction cs generalizing r with
  | nil => rfl
  | cons c cs ih => rw [List.cons_append, hidesQuote, hidesQuote, ih, Bool.or_assoc, after_cons]

theorem nested_append (r : Region) (depth : Nat) (cs ds : List Char) :
    nested r depth (cs ++ ds) = (nested r depth cs).bind fun n => nested (r.after cs) n ds := by
  induction cs generalizing r depth with
  | nil => rfl
  | cons c cs ih =>
      rw [List.cons_append, nested, nested, ih, ih, ih, after_cons]
      split
      · rfl
      · split
        · split
          · rfl
          · rfl
        · rfl

theorem nested_of_ne (other : r.quote? = none → c ≠ '(' ∧ c ≠ ')') (depth : Nat) (cs : List Char) :
    nested r depth (c :: cs) = nested (r.next c) depth cs := by
  rw [nested, if_neg fun both => (other both.1).1 both.2,
    if_neg fun both => (other both.1).2 both.2]

theorem quote?_next_of_none (outside : r.quote? = none) :
    (r.next c).quote? = if c = '"' ∨ c = '\'' then some c else none := by
  cases r with
  | code =>
      rw [next]
      split
      · rfl
      · split <;> rfl
  | bracket =>
      rw [next]
      split
      · rfl
      · split <;> rfl
  | key | text | escape => cases outside

theorem quote?_next_of_some (inside : r.quote? = some mark) (bare : r ≠ escape c) :
    (r.next c).quote? = if c = mark then none else some mark := by
  cases r with
  | code | bracket => cases inside
  | key =>
      cases inside
      rw [next]
      split <;> rfl
  | text =>
      cases inside
      rw [next]
      split
      · rfl
      · split <;> rfl
  | escape =>
      cases inside
      rw [if_neg fun same => bare (by rw [same])]
      rfl

/-- A character that is no hidden quote opens or closes the same parentheses and quotes for the
search for the closing parenthesis. -/
theorem closesAtEnd_next (bare : r ≠ escape c) (found : nested r depth (c :: cs) = some n) :
    ∃ left, nested (r.next c) left cs = some n ∧ ∀ more,
      closesAtEnd (depth + 1) r.quote? (c :: more) =
        closesAtEnd (left + 1) (r.next c).quote? more := by
  cases region : r.quote? with
  | some mark =>
      rw [nested_of_ne (by simp [region])] at found
      refine ⟨depth, found, fun more => ?_⟩
      rw [closesAtEnd, quote?_next_of_some region bare]
  | none =>
      have step := quote?_next_of_none (c := c) region
      by_cases quote : c = '"' ∨ c = '\''
      · have other : c ≠ '(' ∧ c ≠ ')' := by rcases quote with rfl | rfl <;> decide
        rw [nested_of_ne fun _ => other] at found
        refine ⟨depth, found, fun more => ?_⟩
        rw [closesAtEnd, step, if_pos quote, if_pos quote]
      · rw [if_neg quote] at step
        rw [nested, region] at found
        simp only [closesAtEnd, if_neg quote, step]
        by_cases opens : c = '('
        · rw [if_pos ⟨rfl, opens⟩] at found
          exact ⟨depth + 1, found, fun more => if_pos opens⟩
        · rw [if_neg fun both => opens both.2] at found
          by_cases closes : c = ')'
          · rw [if_pos ⟨rfl, closes⟩] at found
            cases depth with
            | zero => cases found
            | succ left =>
                rw [if_neg (by omega)] at found
                refine ⟨left, found, fun more => ?_⟩
                rw [if_neg opens, if_pos closes, if_neg (by omega), Nat.add_sub_cancel]
          · rw [if_neg fun both => closes both.2] at found
            refine ⟨depth, found, fun more => ?_⟩
            rw [if_neg opens, if_neg closes]

/-- Where no quote is hidden, the search for the closing parenthesis knows which quotes are open. -/
theorem closesAtEnd_after (plain : hidesQuote r cs = false) (found : nested r depth cs = some n)
    (rest : List Char) :
    closesAtEnd (depth + 1) r.quote? (cs ++ rest) =
      closesAtEnd (n + 1) (r.after cs).quote? rest := by
  induction cs generalizing r depth with
  | nil =>
      cases found
      rfl
  | cons c cs ih =>
      rw [hidesQuote, Bool.or_eq_false_iff, beq_eq_false_iff_ne] at plain
      obtain ⟨bare, plain⟩ := plain
      obtain ⟨left, foundNext, step⟩ := closesAtEnd_next bare found
      rw [List.cons_append, step, ih plain foundNext, after_cons]

end Region

/-! ## Quotes that the search for operators sees -/

namespace Nesting

variable {s : Nesting}

theorem next_deeper (s : Nesting) (k : Int) (c : Char) :
    ({ s with depth := s.depth + k } : Nesting).next c =
      { s.next c with depth := (s.next c).depth + k } := by
  obtain ⟨depth, quote, escaped⟩ := s
  cases quote with
  | none =>
      simp only [next]
      split
      · rfl
      · split
        · rw [Int.add_right_comm]
        · split
          · simp only [Int.sub_eq_add_neg, Int.add_right_comm]
          · rfl
  | some mark =>
      simp only [next]
      split
      · rfl
      · split
        · rfl
        · split <;> rfl

/-- Brackets that are open already change nothing about what else is open. -/
theorem after_deeper (s : Nesting) (k : Int) (cs : List Char) :
    ({ s with depth := s.depth + k } : Nesting).after cs =
      { s.after cs with depth := (s.after cs).depth + k } := by
  induction cs generalizing s with
  | nil => rfl
  | cons c cs ih => rw [after_cons, after_cons, next_deeper, ih]

/-- Outside of quotes no character is hidden. -/
theorem not_escaped_next (proper : s.quote = none → s.escaped = false) (c : Char) :
    (s.next c).quote = none → (s.next c).escaped = false := by
  obtain ⟨depth, quote, escaped⟩ := s
  cases quote with
  | none =>
      intro _
      simp only [next]
      split
      · exact proper rfl
      · split
        · exact proper rfl
        · split <;> exact proper rfl
  | some mark =>
      simp only [next]
      intro outside
      split at outside
      · cases outside
      next plain =>
        split at outside
        · cases outside
        next noEscape =>
          rw [if_neg plain, if_neg noEscape]
          split
          · simpa using plain
          · simpa using plain

theorem not_escaped_after (proper : s.quote = none → s.escaped = false) (cs : List Char) :
    (s.after cs).quote = none → (s.after cs).escaped = false := by
  induction cs generalizing s with
  | nil => exact proper
  | cons c cs ih => exact ih (not_escaped_next proper c)

theorem quote_next (inside : s.quote = some mark) (differs : c ≠ mark) :
    (s.next c).quote = some mark := by
  obtain ⟨depth, quote, escaped⟩ := s
  cases inside
  simp only [next]
  split
  · rfl
  · split
    · rfl
    · rfl

theorem quote_after (inside : s.quote = some mark) (noMark : ∀ c ∈ cs, c ≠ mark) :
    (s.after cs).quote = some mark := by
  induction cs generalizing s with
  | nil => exact inside
  | cons c cs ih =>
      obtain ⟨differs, noMark⟩ := List.forall_mem_cons.1 noMark
      exact ih (quote_next inside differs) noMark

theorem exists_next_unquoted (noQuote : c ∉ ['"', '\'', '`']) (depth : Int) :
    ∃ n : Int, Nesting.next { depth } c = { depth := n } := by
  simp only [List.mem_cons, List.not_mem_nil, or_false] at noQuote
  simp only [next, if_neg noQuote]
  split
  · exact ⟨depth + 1, rfl⟩
  · split
    · exact ⟨depth - 1, rfl⟩
    · exact ⟨depth, rfl⟩

end Nesting

/-- No quote is open behind a text, and no character is hidden. -/
def Unquoted (cs : List Char) : Prop :=
  ∀ depth : Int, ∃ n : Int, Nesting.after { depth } cs = { depth := n }

theorem unquoted_of_plain (plain : ∀ c ∈ cs, c ∉ ['"', '\'', '`']) : Unquoted cs := by
  induction cs with
  | nil => exact fun depth => ⟨depth, rfl⟩
  | cons c cs ih =>
      obtain ⟨noQuote, plain⟩ := List.forall_mem_cons.1 plain
      intro depth
      obtain ⟨n, behind⟩ := Nesting.exists_next_unquoted noQuote depth
      rw [Nesting.after_cons, behind]
      exact ih plain n

theorem unquoted_of_outside (outside : (Nesting.after {} cs).outside = true) : Unquoted cs := by
  intro depth
  simp only [Nesting.outside, Bool.and_eq_true, Option.isNone_iff_eq_none, beq_iff_eq] at outside
  have proper : ({} : Nesting).quote = none → ({} : Nesting).escaped = false := fun _ => rfl
  have escaped := Nesting.not_escaped_after proper cs outside.1
  refine ⟨depth, ?_⟩
  calc Nesting.after { depth } cs
    _ = { Nesting.after {} cs with depth := (Nesting.after {} cs).depth + depth } := by
      rw [← Nesting.after_deeper, Int.zero_add]
    _ = { depth } := by simp only [outside.1, outside.2, escaped, Int.zero_add]

/-! ## How a text ends -/

open Region (hidesQuote nested)

/-- The characters that open a region, and parentheses. -/
def borders : List Char :=
  ['"', '\'', '[', '(', ')']

theorem Region.next_code (plain : c ∉ borders) :
    Region.next c .code = .code ∧ c ≠ '(' ∧ c ≠ ')' := by
  simp only [borders, List.mem_cons, List.not_mem_nil, or_false, not_or] at plain
  obtain ⟨double, single, bracket, opening, closing⟩ := plain
  refine ⟨?_, opening, closing⟩
  rw [next, if_neg (by simp [double, single]), if_neg bracket]

/-- A text starts and ends outside of quotes, and its parentheses close each other. -/
structure Sealed (cs : List Char) : Prop where
  after : Region.after .code cs = .code
  nested (depth : Nat) : nested .code depth cs = some depth

/-- A text ends with a quote that a backslash hides. -/
structure Unended (mark : Char) (cs : List Char) : Prop where
  listed : mark ∈ ['"', '\'']
  after : Region.after .code cs = .text mark
  nested (depth : Nat) : ∃ n, nested .code depth cs = some n
  hides : hidesQuote .code cs = true
  quoted (depth : Int) : (Nesting.after { depth } cs).quote = some mark

/-- A text ends outside of quotes, or else with a quote that is hidden. -/
def Settled (cs : List Char) : Prop :=
  Sealed cs ∨ ∃ mark, Unended mark cs

theorem sealed_nil : Sealed [] where
  after := rfl
  nested _ := rfl

theorem Sealed.append (first : Sealed cs) (second : Sealed ds) : Sealed (cs ++ ds) where
  after := by rw [Region.after_append, first.after, second.after]
  nested depth := by
    rw [Region.nested_append, first.nested, first.after]
    exact second.nested depth

theorem sealed_of_plain (plain : ∀ c ∈ cs, c ∉ borders) : Sealed cs := by
  induction cs with
  | nil => exact sealed_nil
  | cons c cs ih =>
      obtain ⟨other, plain⟩ := List.forall_mem_cons.1 plain
      obtain ⟨stays, noParen⟩ := Region.next_code other
      refine ⟨by rw [Region.after_cons, stays, (ih plain).after], fun depth => ?_⟩
      rw [Region.nested_of_ne fun _ => noParen, stays, (ih plain).nested]

theorem Sealed.paren (inside : Sealed cs) : Sealed ('(' :: (cs ++ [')'])) where
  after := by
    have opens : Region.next '(' .code = .code := by decide
    rw [Region.after_cons, opens, Region.after_append, inside.after]
    decide
  nested depth := by
    have opens : Region.next '(' .code = .code := by decide
    rw [Region.nested, if_pos ⟨rfl, rfl⟩, opens, Region.nested_append, inside.nested, inside.after]
    rfl

/-- In front of a text that ends with a hidden quote there may be more parentheses that open. -/
theorem Unended.behind (unended : Unended mark ds) (code : Region.after .code cs = Region.code)
    (opens : ∀ depth, ∃ n, Region.nested .code depth cs = some n) (unquoted : Unquoted cs) :
    Unended mark (cs ++ ds) where
  listed := unended.listed
  after := by rw [Region.after_append, code, unended.after]
  nested depth := by
    obtain ⟨n, found⟩ := opens depth
    rw [Region.nested_append, found, code]
    exact unended.nested n
  hides := by rw [Region.hidesQuote_append, code, unended.hides, Bool.or_true]
  quoted depth := by
    obtain ⟨n, behind⟩ := unquoted depth
    rw [Nesting.after_append, behind, unended.quoted]

/-- Between the quotes of a text nothing but the quote and a backslash counts. -/
theorem Region.after_text (plain : ∀ c ∈ cs, c ≠ mark ∧ c ≠ '\\') :
    (text mark).after cs = text mark ∧
      ∀ depth, Region.nested (text mark) depth cs = some depth := by
  induction cs with
  | nil => exact ⟨rfl, fun _ => rfl⟩
  | cons c cs ih =>
      obtain ⟨⟨noMark, noEscape⟩, plain⟩ := List.forall_mem_cons.1 plain
      have stays : (text mark).next c = text mark := by rw [next, if_neg noMark, if_neg noEscape]
      refine ⟨by rw [after_cons, stays, (ih plain).1], fun depth => ?_⟩
      rw [nested_of_ne fun outside => by cases outside]
      rw [stays, (ih plain).2]

theorem Unended.append (unended : Unended mark cs) (plain : ∀ c ∈ ds, c ∉ ['"', '\'', '\\']) :
    Unended mark (cs ++ ds) := by
  have other : ∀ c ∈ ds, c ≠ mark ∧ c ≠ '\\' := by
    have listed : ∀ mark ∈ ['"', '\''], mark ∈ ['"', '\'', '\\'] := Text.forall_of_all (by decide)
    refine fun c member => ⟨fun same => ?_, fun same => plain c member (by simp [same])⟩
    exact plain c member (same ▸ listed mark unended.listed)
  obtain ⟨stays, counts⟩ := Region.after_text other
  refine ⟨unended.listed, ?_, fun depth => ?_, ?_, fun depth => ?_⟩
  · rw [Region.after_append, unended.after, stays]
  · obtain ⟨n, found⟩ := unended.nested depth
    exact ⟨n, by rw [Region.nested_append, found, unended.after]; exact counts n⟩
  · rw [Region.hidesQuote_append, unended.hides, Bool.true_or]
  · rw [Nesting.after_append]
    exact Nesting.quote_after (unended.quoted depth) fun c member => (other c member).1

theorem Settled.append (settled : Settled cs) (plain : ∀ c ∈ ds, c ∉ '\\' :: borders) :
    Settled (cs ++ ds) := by
  rcases settled with closed | ⟨mark, unended⟩
  · exact .inl (closed.append (sealed_of_plain fun c member listed =>
      plain c member (List.mem_cons_of_mem _ listed)))
  · have listed : ∀ c ∈ ['"', '\'', '\\'], c ∈ '\\' :: borders := Text.forall_of_all (by decide)
    exact .inr ⟨mark, unended.append fun c member mark => plain c member (listed c mark)⟩

theorem Sealed.append_settled (first : Sealed cs) (unquoted : Unquoted cs) (second : Settled ds) :
    Settled (cs ++ ds) := by
  rcases second with closed | ⟨mark, unended⟩
  · exact .inl (first.append closed)
  · have counts (depth : Nat) : ∃ n, Region.nested .code depth cs = some n :=
      ⟨depth, first.nested depth⟩
    exact .inr ⟨mark, unended.behind first.after counts unquoted⟩

/-- A hidden quote hides the parenthesis behind it. -/
theorem Unended.paren (unended : Unended mark cs) : Unended mark ('(' :: (cs ++ [')'])) := by
  have opens : Region.after .code ['('] = .code := by decide
  have unquoted : Unquoted ['('] := unquoted_of_plain (Text.forall_of_all (by decide))
  have behind := unended.behind opens (fun depth => ⟨depth + 1, rfl⟩) unquoted
  exact behind.append (Text.forall_of_all (by decide))

theorem Settled.paren (settled : Settled cs) : Settled ('(' :: (cs ++ [')'])) := by
  rcases settled with closed | ⟨mark, unended⟩
  · exact .inl closed.paren
  · exact .inr ⟨mark, unended.paren⟩

theorem Unended.not_outside (unended : Unended mark cs) :
    (Nesting.after {} cs).outside = false := by
  rw [Nesting.outside, unended.quoted 0]
  rfl

/-- In front of an operator no quote is open. -/
theorem Settled.sealed_of_outside (settled : Settled cs)
    (outside : (Nesting.after {} cs).outside = true) : Sealed cs := by
  rcases settled with closed | ⟨mark, unended⟩
  · exact closed
  · rw [unended.not_outside] at outside
    cases outside

end UiDoc.Expr
