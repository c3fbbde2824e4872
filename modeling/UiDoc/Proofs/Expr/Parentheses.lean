import UiDoc.Expr.Evaluation
import UiDoc.Proofs.Expr.Ends

/-!
# Parentheses around an expression

Parentheses around an expression change nothing if the search for the closing one sees the quotes
that end texts, which it does unless a backslash stands in front of one of them.  Otherwise what
stands in parentheses may be no expression, but it is never another one.
-/

namespace UiDoc.Expr

open Region (hidesQuote nested)

variable {cs ds : List Char} {e : Expr}

/-- If no quote is hidden, the parentheses around an expression are those that belong together. -/
theorem enclosed?_of_read (read : parseChars cs = some e) (plain : hidesQuote .code cs = false) :
    enclosed? ('(' :: (cs ++ [')'])) = some cs := by
  rcases settled_of_parseChars read with closed | ⟨mark, unended⟩
  · have closes : closesAtEnd 1 none (cs ++ [')']) = true := by
      have found := Region.closesAtEnd_after plain (closed.nested 0) [')']
      rw [closed.after] at found
      exact found
    rw [enclosed?, if_pos ⟨List.getLast?_concat, closes⟩, List.dropLast_concat]
  · rw [unended.hides] at plain
    cases plain

/-- No expression goes on behind a parenthesis that it does not open. -/
theorem not_settled (closed : Sealed cs) : ¬Settled (cs ++ ')' :: ds) := by
  have none : nested .code 0 (cs ++ ')' :: ds) = none := by
    rw [Region.nested_append, closed.nested, closed.after]
    rfl
  rintro (whole | ⟨mark, unended⟩)
  · cases none.symm.trans (whole.nested 0)
  · obtain ⟨n, found⟩ := unended.nested 0
    cases none.symm.trans found

/-- Parentheses that close in front of an operator enclose no expression, if the whole text without
the outer parentheses is one. -/
theorem operand_in_parens {α : Type} {operator? : List Char → Option (α × List Char)} {a : α}
    {left right : List Char} (vacant : operator? [] = none) (read : parseChars cs = some e)
    (found : splitOperator operator? {} ('(' :: (cs ++ [')'])) = some (left, a, right)) :
    operand left = none := by
  obtain ⟨tail, parts, sign⟩ := splitOperator_eq found
  have outside := outside_of_splitOperator found
  cases left with
  | nil => exact operand_of_blank rfl
  | cons c left =>
      obtain ⟨rfl, same⟩ := List.cons.inj parts
      obtain ⟨rest, trail, trimmed, rfl, blank⟩ := Text.exists_trim_cons (c := '(') (by decide) left
      cases readLeft : operand ('(' :: (rest ++ trail)) with
      | none => rfl
      | some b =>
          exfalso
          obtain ⟨inner, enclosed, readInner⟩ := enclosed?_of_operand readLeft trimmed
          rw [trimmed] at enclosed
          obtain ⟨-, rfl⟩ := List.cons.inj (enclosed?_eq enclosed)
          -- a hidden quote would hide the operator too
          have inside : Sealed inner := by
            rcases settled_of_parseChars readInner with closed | ⟨mark, unended⟩
            · exact closed
            · have plain : ∀ c ∈ trail, c ∉ ['"', '\'', '\\'] :=
                fun c member => Text.not_mem_of_all (blank c member) (by decide)
              have hidden := (unended.paren.append plain).not_outside
              rw [List.cons_append, outside] at hidden
              cases hidden
          -- so the whole text would go on behind a parenthesis that it does not open
          rcases List.eq_nil_or_concat tail with rfl | ⟨before, d, rfl⟩
          · rw [vacant] at sign
            cases sign
          · have joined : cs ++ [')'] = (inner ++ [')'] ++ trail ++ before) ++ [d] := by
              simpa using same
            obtain ⟨rfl, -⟩ := List.append_inj' joined rfl
            have settled := settled_of_parseChars read
            rw [List.append_assoc, List.append_assoc] at settled
            exact not_settled inside settled

/-- An expression in parentheses is the expression, if it is one at all. -/
theorem parseChars_in_parens {f : Expr} (read : parseChars cs = some e)
    (readToo : parseChars ('(' :: (cs ++ [')'])) = some f) : f = e := by
  cases enclosed : enclosed? ('(' :: (cs ++ [')'])) with
  | some inner =>
      have same := List.append_cancel_right (List.cons.inj (enclosed?_eq enclosed)).2
      rw [← trim_paren, ← same] at enclosed
      exact Option.some.inj ((readToo.symm.trans (parseChars_of_enclosed enclosed)).trans read)
  | none =>
      have same : bare ('(' :: (cs ++ [')'])) = '(' :: (cs ++ [')']) :=
        bare_of_trimmed (trim_paren cs) enclosed
      have whole := operand_of_parseChars same (fun _ _ found => operand_in_parens rfl read found)
        (fun _ _ _ found => operand_in_parens rfl read found) readToo
      rw [operand_of_ne (by decide) (trim_paren cs), enclosed] at whole
      cases (leaf?_eq_none (by decide) _).symm.trans whole

theorem toList_parens (text : String) :
    ("(" ++ text ++ ")").toList = '(' :: (text.toList ++ [')']) := by
  simp

/-- An expression in parentheses is an expression, unless a backslash hides the quote that would end
one of its texts.  If it is one, it has the same value as without them. -/
theorem eval?_parens {text : String} (supported : isSupported text = true) :
    (hidesQuote .code text.toList = false → isSupported ("(" ++ text ++ ")") = true) ∧
      (isSupported ("(" ++ text ++ ")") = true →
        ∀ scope, eval? scope ("(" ++ text ++ ")") = eval? scope text) := by
  obtain ⟨e, read⟩ := Option.isSome_iff_exists.1 supported
  constructor
  · intro plain
    have enclosed := enclosed?_of_read read plain
    rw [← trim_paren] at enclosed
    have same : parse? ("(" ++ text ++ ")") = parse? text := by
      rw [parse?, parse?, toList_parens, parseChars_of_enclosed enclosed]
    rw [isSupported, same]
    exact supported
  · intro supportedToo scope
    obtain ⟨f, readToo⟩ := Option.isSome_iff_exists.1 supportedToo
    have again := readToo
    rw [parse?, toList_parens] at again
    rw [eval?, eval?, readToo, read, parseChars_in_parens read again]

/-- Parentheses in a key and in a text, a quote of the other kind, and a backslash that stands
for itself at the end of a text. -/
theorem eval?_parens_chain :
    isSupported "(a['('] === \"it's :)\") || '\\\\'" = true ∧
      ∀ scope, eval? scope ("(" ++ "(a['('] === \"it's :)\") || '\\\\'" ++ ")") =
        eval? scope "(a['('] === \"it's :)\") || '\\\\'" := by
  have supported : isSupported "(a['('] === \"it's :)\") || '\\\\'" = true := by decide +kernel
  obtain ⟨supports, same⟩ := eval?_parens supported
  exact ⟨supported, same (supports (by decide))⟩

/-- The text that is a quote, written between two of its kind. -/
theorem not_isSupported_parens :
    (eval? { data := .null } "'\\''").map Value.text = some "'" ∧
      isSupported ("(" ++ "'\\''" ++ ")") = false := by
  decide +kernel

end UiDoc.Expr
