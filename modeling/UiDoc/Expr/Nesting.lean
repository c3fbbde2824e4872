import UiDoc.Text.Search

/-!
# Brackets and quotes in the text of an expression

An operator counts only where no bracket and no quote is open.
-/

namespace UiDoc.Expr

/-- Which brackets and quotes are open. -/
structure Nesting where
  /-- The number of opening brackets less that of closing ones. -/
  depth : Int := 0
  /-- The quote that is open. -/
  quote : Option Char := none
  /-- Whether a backslash inside of quotes hides the next character. -/
  escaped : Bool := false
  deriving DecidableEq, Repr

namespace Nesting

/-- Nothing is open. -/
def outside (s : Nesting) : Bool :=
  s.quote.isNone && s.depth == 0

/-- Behind one more character. -/
def next (s : Nesting) (c : Char) : Nesting :=
  match s.quote with
  | some quote =>
      if s.escaped then { s with escaped := false }
      else if c = '\\' then { s with escaped := true }
      else if c = quote then { s with quote := none }
      else s
  | none =>
      if c = '"' ∨ c = '\'' ∨ c = '`' then { s with quote := some c }
      else if c = '(' ∨ c = '[' ∨ c = '{' then { s with depth := s.depth + 1 }
      else if c = ')' ∨ c = ']' ∨ c = '}' then { s with depth := s.depth - 1 }
      else s

end Nesting

variable {α : Type}

/-- Splits a text at the first operator where nothing is open.  `operator?` recognises an operator
at the start of a text and gives the rest. -/
def splitOperator (operator? : List Char → Option (α × List Char)) :
    Nesting → List Char → Option (List Char × α × List Char)
  | _, [] => none
  | s, c :: cs =>
      match if s.outside then operator? (c :: cs) else none with
      | some (operator, rest) => some ([], operator, rest)
      | none =>
          (splitOperator operator? (s.next c) cs).map fun (before, found) => (c :: before, found)

/-- An operator takes at least one character, so both parts of a split are shorter than the text. -/
theorem splitOperator_length {operator? : List Char → Option (α × List Char)}
    (shrinks : ∀ cs a rest, operator? cs = some (a, rest) → rest.length < cs.length)
    {s : Nesting} {cs before rest : List Char} {a : α}
    (found : splitOperator operator? s cs = some (before, a, rest)) :
    before.length + rest.length < cs.length := by
  induction cs generalizing s before with
  | nil => simp [splitOperator] at found
  | cons c cs ih =>
      simp only [splitOperator] at found
      split at found
      · rename_i b t operator
        obtain ⟨rfl, rfl, rfl⟩ : [] = before ∧ b = a ∧ t = rest := by simpa using found
        have at_start : operator? (c :: cs) = some (b, t) := by
          revert operator
          split <;> simp
        simpa using shrinks _ _ _ at_start
      · obtain ⟨⟨front, tail⟩, inner, same⟩ := Option.map_eq_some_iff.1 found
        obtain ⟨rfl, rfl⟩ : c :: front = before ∧ tail = (a, rest) := by simpa using same
        have := ih inner
        simp only [List.length_cons]
        omega

/-- Whether the parenthesis that `depth` counts closes at the very end of the text.  Quotes hide
parentheses; backslashes mean nothing here. -/
def closesAtEnd : Nat → Option Char → List Char → Bool
  | depth, _, [] => depth == 0
  | depth, some quote, c :: cs => closesAtEnd depth (if c = quote then none else some quote) cs
  | depth, none, c :: cs =>
      if c = '"' ∨ c = '\'' then closesAtEnd depth (some c) cs
      else if c = '(' then closesAtEnd (depth + 1) none cs
      else if c = ')' then
        if depth = 1 ∧ cs ≠ [] then false else closesAtEnd (depth - 1) none cs
      else closesAtEnd depth none cs

/-- What stands between the parentheses that enclose a whole text. -/
def enclosed? : List Char → Option (List Char)
  | '(' :: cs =>
      if cs.getLast? = some ')' ∧ closesAtEnd 1 none cs then some cs.dropLast else none
  | _ => none

/-- The parentheses are left out. -/
theorem enclosed?_length {cs inner : List Char} (h : enclosed? cs = some inner) :
    inner.length < cs.length := by
  unfold enclosed? at h
  split at h
  · split at h
    · obtain rfl : _ = inner := by simpa using h
      simp only [List.length_dropLast, List.length_cons]
      omega
    · simp at h
  · simp at h

end UiDoc.Expr
