import UiDoc.Expr.Evaluation
import UiDoc.Proofs.Expr.Reading

/-!
# Writing any text as a literal

Between quotes a backslash stands in front of each backslash and of each quote of the same kind.
Nothing else in a text needs care.
-/

namespace UiDoc.Expr

open Nesting (level)

variable {cs : List Char} {mark : Char}

/-- The characters of a text as they are written between quotes. -/
def escape (mark : Char) (cs : List Char) : List Char :=
  cs.flatMap fun c => if c = '\\' ∨ c = mark then ['\\', c] else [c]

/-- A text as it is written as a literal. -/
def quote (mark : Char) (s : String) : String :=
  String.ofList (mark :: (escape mark s.toList ++ [mark]))

theorem escape_cons_of_special {c : Char} (special : c = '\\' ∨ c = mark) (cs : List Char) :
    escape mark (c :: cs) = '\\' :: c :: escape mark cs := by
  rw [escape, List.flatMap_cons, if_pos special]
  rfl

theorem escape_cons_of_plain {c : Char} (plain : ¬(c = '\\' ∨ c = mark)) (cs : List Char) :
    escape mark (c :: cs) = c :: escape mark cs := by
  rw [escape, List.flatMap_cons, if_neg plain]
  rfl

theorem hasBareQuote_escape (mark : Char) (cs : List Char) :
    hasBareQuote mark (escape mark cs) = false := by
  induction cs with
  | nil => rfl
  | cons c cs ih =>
      by_cases special : c = '\\' ∨ c = mark
      · rw [escape_cons_of_special special, hasBareQuote, ih]
      · rw [escape_cons_of_plain special, hasBareQuote, ih]
        · simpa using fun same => special (.inr same)
        · exact fun _ _ same => absurd (.inl same) special

theorem endsInEscape_escape (mark : Char) (cs : List Char) :
    endsInEscape (escape mark cs) = false := by
  induction cs with
  | nil => rfl
  | cons c cs ih =>
      by_cases special : c = '\\' ∨ c = mark
      · rw [escape_cons_of_special special, endsInEscape, ih]
      · rw [escape_cons_of_plain special, endsInEscape, ih]
        · exact fun same => absurd (.inl same) special
        · exact fun _ _ same => absurd (.inl same) special

theorem unescape_escape (quote : mark ∈ ['"', '\'']) (cs : List Char) :
    unescape (escape mark cs) = cs := by
  have plain : ∀ c ∈ ['\\', '"', '\''], unescapeChar c = c := Text.forall_of_all (by decide)
  induction cs with
  | nil => rfl
  | cons c cs ih =>
      by_cases special : c = '\\' ∨ c = mark
      · have listed : c ∈ ['\\', '"', '\''] := by
          rcases special with rfl | rfl
          · decide
          · exact List.mem_cons_of_mem _ quote
        rw [escape_cons_of_special special, unescape, plain c listed, ih]
      · rw [escape_cons_of_plain special, unescape, ih]
        exact fun _ _ same => absurd (.inl same) special

/-- What stands between quotes is a literal if no bare quote is in it. -/
theorem leaf?_quoted (listed : mark ∈ ['"', '\'']) {body : List Char}
    (noQuote : hasBareQuote mark body = false) :
    leaf? (mark :: (body ++ [mark])) =
      some (.literal (some (.str (String.ofList (unescape body))))) := by
  rw [leaf?, Script.readLiteral_quoted listed noQuote]

theorem trim_quoted (quote : mark ∈ ['"', '\'']) (body : List Char) :
    Text.trim (mark :: (body ++ [mark])) = mark :: (body ++ [mark]) := by
  have each : ∀ c ∈ ['"', '\''], Text.isBlank c = false := Text.forall_of_all (by decide)
  apply Text.trim_of_ends
  · intro c first
    rw [← Option.some.inj first]
    exact each mark quote
  · intro c last
    rw [← List.cons_append, List.getLast?_concat] at last
    rw [← Option.some.inj last]
    exact each mark quote

/-- Every text can be written as a literal, between quotes of either kind. -/
theorem eval?_quote (scope : Scope) (listed : mark ∈ ['"', '\'']) (s : String) :
    eval? scope (quote mark s) = some (some (.str s)) := by
  have noQuote := hasBareQuote_escape mark s.toList
  have shut : Shut (level 0) (mark :: (escape mark s.toList ++ [mark])) :=
    shut_quoted listed noQuote (endsInEscape_escape mark s.toList)
  have trimmed := trim_quoted listed (escape mark s.toList)
  have read := operand_leaf (leaf?_quoted listed noQuote) trimmed
  rw [eval?, parse?, quote, String.toList_ofList, parseChars_of_shut (trimmed.symm ▸ shut) read,
    unescape_escape listed, String.ofList_toList]
  rfl

/-- Operators, brackets, quotes of both kinds, and backslashes, one in front of a letter that would
otherwise stand for something else and one at the end. -/
theorem eval?_quote_operators :
    '\'' ∈ ['"', '\''] ∧
      quote '\'' "a || (b' == \"é\\n\") \\" = "'a || (b\\' == \"é\\\\n\") \\\\'" ∧
      ∀ scope, eval? scope (quote '\'' "a || (b' == \"é\\n\") \\") =
        some (some (.str "a || (b' == \"é\\n\") \\")) :=
  ⟨by decide, rfl, fun scope => eval?_quote scope (by decide) _⟩

end UiDoc.Expr
