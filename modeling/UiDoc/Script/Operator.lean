import UiDoc.Script.Tree
import UiDoc.Script.Bounds

/-!
# Operators of a script

Arithmetic is that of doubles.  Bits are those of words of 32 bits, to which a number is reduced
after its fraction is dropped.
-/

namespace UiDoc.Script

/-- The word of 32 bits that a value stands for. -/
def toWord (v : Value) : BitVec 32 :=
  let x := Value.toFloat v
  if x.isFinite then BitVec.ofInt 32 (Binary64.toInt64 x) else 0

/-- The value of a computed number. -/
def computed (x : Float) : Value :=
  some (Value.ofFloat x)

/-- The value of a truth value. -/
def truth (b : Bool) : Value :=
  some (.bool b)

/-- The value of an integer. -/
def integer (n : Int) : Value :=
  some (.int n)

/-- The value of an operator in front of an operand. -/
def UnaryOp.apply (v : Value) : UnaryOp → Value
  | not => truth (!Value.truthy v)
  | negate => computed (-Value.toFloat v)
  | plus => computed (Value.toFloat v)
  | bitNot => integer (~~~toWord v).toInt
  | typeOf => some (.str (Value.kind v))
  | discard => none

/-- Whether a value makes `+` join texts. -/
def joinsAsText : Value → Bool
  | some (.str _) | some (.arr _) | some (.obj _) => true
  | _ => false

/-- How far a shift goes: the lowest five bits of its right operand. -/
def shiftAmount (v : Value) : Nat :=
  (toWord v).toNat % 32

/-- The sum of two values: joined texts if one of them is a text, an array or an object. -/
def sum (left right : Value) : Except Fault Value :=
  if joinsAsText left || joinsAsText right then
    bounded (some (.str (Value.text left ++ Value.text right)))
  else .ok (computed (Value.toFloat left + Value.toFloat right))

/-- The value of an operator between two operands. -/
def BinaryOp.apply (left right : Value) : BinaryOp → Except Fault Value
  | compare comparison => .ok (truth (comparison.holds left right))
  | add => sum left right
  | subtract => .ok (computed (Value.toFloat left - Value.toFloat right))
  | multiply => .ok (computed (Value.toFloat left * Value.toFloat right))
  | divide => .ok (computed (Value.toFloat left / Value.toFloat right))
  | remainder => .ok (computed (Binary64.remainder (Value.toFloat left) (Value.toFloat right)))
  | power => .ok (computed (Float.pow (Value.toFloat left) (Value.toFloat right)))
  | bitAnd => .ok (integer (toWord left &&& toWord right).toInt)
  | bitOr => .ok (integer (toWord left ||| toWord right).toInt)
  | bitXor => .ok (integer (toWord left ^^^ toWord right).toInt)
  | shiftLeft => .ok (integer (toWord left <<< shiftAmount right).toInt)
  | shiftRight => .ok (integer ((toWord left).sshiftRight (shiftAmount right)).toInt)
  | shiftRightZero => .ok (integer (toWord left >>> shiftAmount right).toNat)

/-- Whether the first operand decides. -/
def LogicalOp.decides (left : Value) : LogicalOp → Bool
  | or => Value.truthy left
  | and => !Value.truthy left
  | coalesce => !Value.nullish left

/-- The value of a field or an item; `null` and undefined have none. -/
def access (target : Value) (name : String) (optional : Bool) : Except Fault Value :=
  match target with
  | none | some .null => if optional then .ok none else .error .mistyped
  | some v => .ok (Path.step v name)

end UiDoc.Script
