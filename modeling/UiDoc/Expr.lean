import UiDoc.Scope.Lookup

/-!
# Expressions of a document

The language of conditions and placeholders is small on purpose: literals, paths into the scope,
negation, one comparison, and `left || fallback` chains.
-/

namespace UiDoc

/-- The comparisons between two values. -/
inductive Comparison where
  | strictEq
  | strictNe
  | looseEq
  | looseNe
  | greater
  | greaterEq
  | less
  | lessEq
  deriving DecidableEq, Repr

namespace Comparison

/-- The sign of a comparison. -/
def sign : Comparison → String
  | strictEq => "==="
  | strictNe => "!=="
  | looseEq => "=="
  | looseNe => "!="
  | greater => ">"
  | greaterEq => ">="
  | less => "<"
  | lessEq => "<="

/-- Whether a comparison holds.  Values without an order are in no order relation. -/
def holds (left right : Value) : Comparison → Bool
  | strictEq => Value.strictEq left right
  | strictNe => !Value.strictEq left right
  | looseEq => Value.looseEq left right
  | looseNe => !Value.looseEq left right
  | greater => (Value.compare left right).any (· == .gt)
  | greaterEq => (Value.compare left right).any (· != .lt)
  | less => (Value.compare left right).any (· == .lt)
  | lessEq => (Value.compare left right).any (· != .gt)

end Comparison

/-- An expression. -/
inductive Expr where
  | literal (value : Value)
  | path (path : String)
  | not (operand : Expr)
  | compare (comparison : Comparison) (left right : Expr)
  /-- The left value if it counts as true, else the right one. -/
  | fallback (left right : Expr)

namespace Expr

/-- The value of an expression in a scope. -/
def eval (scope : Scope) : Expr → Value
  | .literal value => value
  | .path text => scope.lookup text
  | .not operand => some (.bool (!Value.truthy (eval scope operand)))
  | .compare comparison left right =>
      some (.bool (comparison.holds (eval scope left) (eval scope right)))
  | .fallback left right =>
      let value := eval scope left
      if Value.truthy value then value else eval scope right

end Expr

end UiDoc
