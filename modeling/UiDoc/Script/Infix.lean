import UiDoc.Script.Names
import UiDoc.Script.Token

/-!
# Operators as they are written

Which signs and words are operators, how tightly they bind, and which of them need parentheses
between them.
-/

namespace UiDoc.Script

/-- What an operator between two operands makes of them. -/
inductive Infix where
  | binary (op : BinaryOp)
  | logical (op : LogicalOp)
  | unavailable
  deriving DecidableEq, Repr

namespace Infix

/-- How tightly comparisons bind. -/
def comparisonLevel : Nat := 8

/-- How tightly powers bind, which group from the right. -/
def powerLevel : Nat := 12

/-- The operator that a sign or a word denotes, and how tightly it binds; `membership` tells whether
`in` is an operator. -/
def ofToken (membership : Bool) : Token → Option (Infix × Nat)
  | .sign s =>
      [("??", .logical .coalesce, 1), ("||", .logical .or, 2), ("&&", .logical .and, 3),
       ("|", .binary .bitOr, 4), ("^", .binary .bitXor, 5), ("&", .binary .bitAnd, 6),
       ("===", .binary (.compare .strictEq), 7), ("!==", .binary (.compare .strictNe), 7),
       ("==", .binary (.compare .looseEq), 7), ("!=", .binary (.compare .looseNe), 7),
       ("<", .binary (.compare .less), comparisonLevel),
       ("<=", .binary (.compare .lessEq), comparisonLevel),
       (">", .binary (.compare .greater), comparisonLevel),
       (">=", .binary (.compare .greaterEq), comparisonLevel),
       ("<<", .binary .shiftLeft, 9), (">>", .binary .shiftRight, 9),
       (">>>", .binary .shiftRightZero, 9),
       ("+", .binary .add, 10), ("-", .binary .subtract, 10),
       ("*", .binary .multiply, 11), ("/", .binary .divide, 11), ("%", .binary .remainder, 11),
       ("**", .binary .power, powerLevel)].lookup s
  | .name word _ =>
      if (word = "in" ∧ membership) ∨ word = "instanceof" then some (.unavailable, comparisonLevel)
      else none
  | _ => none

/-- Whether two operands make an operator for missing values ambiguous. -/
def mixes (left right : Tree) : Bool :=
  match left, right with
  | _, .logical op _ _ => op != .coalesce
  | .logical op _ _, _ => op != .coalesce
  | _, _ => false

/-- The tree of an operator with its operands, unless it needs parentheses. -/
def tree? (op : Infix) (left right : Tree) : Option Tree :=
  match op with
  | .binary op => some (.binary op left right)
  | .logical .coalesce =>
      if mixes left right then none else some (.logical .coalesce left right)
  | .logical op => some (.logical op left right)
  | .unavailable => some (.other (left.mentions ++ right.mentions))

end Infix

/-- The operator in front of an operand. -/
def UnaryOp.ofToken : Token → Option UnaryOp
  | .sign "!" => some .not
  | .sign "-" => some .negate
  | .sign "+" => some .plus
  | .sign "~" => some .bitNot
  | .name "typeof" false => some .typeOf
  | .name "void" false => some .discard
  | _ => none

/-- The signs that combine an operator and an assignment. -/
def compoundAssignments : List String := [
  "+=", "-=", "*=", "/=", "%=", "**=", "<<=", ">>=", ">>>=", "&=", "|=", "^=", "&&=", "||=", "??="]

/-- Whether a token can start only an operand, if it stands behind `await` or `yield` in the same
line. -/
def startsOperand : Token → Bool
  | .name word _ => word != "in" && word != "instanceof"
  | .number _ | .bigNumber _ | .text _ => true
  | .sign s => s = "/" || s = "/="
  | _ => false

end UiDoc.Script
