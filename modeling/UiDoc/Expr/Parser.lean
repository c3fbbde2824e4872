import UiDoc.Expr
import UiDoc.Expr.PathForm
import UiDoc.Expr.Literal
import UiDoc.Expr.Nesting

/-!
# Reading expressions

A text outside of the language has no expression.  The operators of a text are looked for from the
left, first `||` and then the comparisons; the right side of `||` is a literal, a path or another
chain.  A comparison is not an operand unless it stands in parentheses.
-/

namespace UiDoc.Expr

/-- The comparisons, longer signs before those that they start with. -/
def comparisons : List Comparison :=
  [.strictEq, .strictNe, .looseEq, .looseNe, .greaterEq, .lessEq, .greater, .less]

/-- The first of some comparisons whose sign starts a text, and the rest of the text. -/
def comparisonIn (candidates : List Comparison) (cs : List Char) :
    Option (Comparison × List Char) :=
  candidates.findSome? fun comparison =>
    (Text.dropLeading? comparison.sign.toList cs).map fun rest => (comparison, rest)

/-- The comparison at the start of a text. -/
def comparison? (cs : List Char) : Option (Comparison × List Char) :=
  comparisonIn comparisons cs

/-- The sign `||` at the start of a text. -/
def fallback? : List Char → Option (Unit × List Char)
  | '|' :: '|' :: rest => some ((), rest)
  | _ => none

/-- A sign is left out of the rest. -/
theorem fallback?_shrinks (cs : List Char) (a : Unit) (rest : List Char)
    (h : fallback? cs = some (a, rest)) : rest.length < cs.length := by
  unfold fallback? at h
  split at h
  · obtain rfl : _ = rest := by simpa using h
    simp only [List.length_cons]
    omega
  · simp at h

/-- A pattern and the rest make up the text. -/
theorem length_dropLeading? {pattern cs rest : List Char}
    (h : Text.dropLeading? pattern cs = some rest) : pattern.length + rest.length = cs.length := by
  induction pattern generalizing cs with
  | nil => simp_all [Text.dropLeading?]
  | cons p pattern ih =>
      cases cs with
      | nil => simp [Text.dropLeading?] at h
      | cons c cs =>
          simp only [Text.dropLeading?] at h
          split at h
          · have := ih h
            simp only [List.length_cons]
            omega
          · simp at h

/-- No sign is empty. -/
theorem sign_length_pos (comparison : Comparison) : 0 < comparison.sign.toList.length := by
  cases comparison <;> simp [Comparison.sign]

/-- A sign is left out of the rest. -/
theorem comparison?_shrinks (cs : List Char) (a : Comparison) (rest : List Char)
    (h : comparison? cs = some (a, rest)) : rest.length < cs.length := by
  obtain ⟨comparison, -, found⟩ := List.exists_of_findSome?_eq_some h
  obtain ⟨tail, dropped, same⟩ := Option.map_eq_some_iff.1 found
  obtain ⟨rfl, rfl⟩ : comparison = a ∧ tail = rest := by simpa using same
  have := length_dropLeading? dropped
  have := sign_length_pos comparison
  omega

/-- Removes white space and enclosing parentheses for as long as there are any. -/
def bare (cs : List Char) : List Char :=
  match _h : enclosed? (Text.trim cs) with
  | some inner => bare inner
  | none => Text.trim cs
termination_by cs.length
decreasing_by
  have := enclosed?_length _h
  have := Text.trim_length_le cs
  omega

/-- Removing parentheses makes no text longer. -/
theorem bare_length_le (cs : List Char) : (bare cs).length ≤ cs.length := by
  fun_induction bare cs with
  | case1 cs inner h ih =>
      have := enclosed?_length h
      have := Text.trim_length_le cs
      omega
  | case2 cs h => exact Text.trim_length_le cs

/-- Whether an expression may stand on the right of `||` by itself. -/
def isLeaf : Expr → Bool
  | .literal _ | .path _ => true
  | _ => false

/-- A literal or a path. -/
def leaf? (cs : List Char) : Option Expr :=
  match readLiteral cs with
  | some value => some (.literal value)
  | none =>
      if PathForm.isPath cs then
        some (.path (String.ofList (cs.filter fun c => !Text.isBlank c)))
      else none

mutual

/-- The expression of a whole text. -/
def parseChars (text : List Char) : Option Expr :=
  if bare text = [] then none
  else
    match _h : splitOperator fallback? {} (bare text) with
    | some (left, _, right) => do
        let left ← operand left
        let right ← chain right
        some (.fallback left right)
    | none =>
        match _h : splitOperator comparison? {} (bare text) with
        | some (left, comparison, right) => do
            let left ← operand left
            let right ← operand right
            some (.compare comparison left right)
        | none => operand (bare text)
termination_by 2 * text.length + 1
decreasing_by
  all_goals have := bare_length_le text
  · have := splitOperator_length fallback?_shrinks _h
    omega
  · have := splitOperator_length fallback?_shrinks _h
    omega
  · have := splitOperator_length comparison?_shrinks _h
    omega
  · have := splitOperator_length comparison?_shrinks _h
    omega
  · omega

/-- The right side of `||`. -/
def chain (text : List Char) : Option Expr :=
  match _h : splitOperator fallback? {} (Text.trim text) with
  | some (left, _, right) => do
      let left ← operand left
      let right ← chain right
      some (.fallback left right)
  | none => (operand text).filter isLeaf
termination_by 2 * text.length + 1
decreasing_by
  all_goals have := Text.trim_length_le text
  · have := splitOperator_length fallback?_shrinks _h
    omega
  · have := splitOperator_length fallback?_shrinks _h
    omega
  · omega

/-- An operand of an operator. -/
def operand (text : List Char) : Option Expr :=
  match _hcs : Text.trim text with
  | [] => none
  | '!' :: rest =>
      match _h : enclosed? (Text.trim rest) with
      | some inner => (parseChars inner).map .not
      | none => (operand rest).map .not
  | c :: cs =>
      match _h : enclosed? (c :: cs) with
      | some inner => parseChars inner
      | none => leaf? (c :: cs)
termination_by 2 * text.length
decreasing_by
  all_goals
    have whole := Text.trim_length_le text
    rw [_hcs] at whole
    simp only [List.length_cons] at whole
  · have := enclosed?_length _h
    have := Text.trim_length_le rest
    omega
  · omega
  · have := enclosed?_length _h
    simp only [List.length_cons] at this
    omega

end

/-- The expression that a text stands for. -/
def parse? (text : String) : Option Expr :=
  parseChars text.toList

end UiDoc.Expr
