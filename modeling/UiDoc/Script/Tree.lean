import UiDoc.Expr

/-!
# The tree of a script

What a script says, part by part as it is written.  Parts that are part of the language but that no
script may use are kept only for the names in them.
-/

namespace UiDoc.Script

/-- The operators in front of an operand. -/
inductive UnaryOp where
  | not
  | negate
  | plus
  | bitNot
  | typeOf
  | discard
  deriving DecidableEq, Repr

/-- The operators between two operands that always evaluate both. -/
inductive BinaryOp where
  | compare (comparison : Comparison)
  | add
  | subtract
  | multiply
  | divide
  | remainder
  | power
  | bitAnd
  | bitOr
  | bitXor
  | shiftLeft
  | shiftRight
  | shiftRightZero
  deriving DecidableEq, Repr

/-- The operators that evaluate their second operand only if they need it. -/
inductive LogicalOp where
  | or
  | and
  | coalesce
  deriving DecidableEq, Repr

/-- A part of an array, or an argument of a call. -/
inductive Element (α : Type) where
  | item (x : α)
  /-- Contributes its own parts. -/
  | spread (x : α)
  deriving DecidableEq, Repr

/-- What a part of a script says about names. -/
structure Mentions where
  /-- The names whose values it uses, in the order of the text. -/
  used : List String := []
  /-- The names that it introduces. -/
  bound : List String := []
  /-- Whether a field has a default value outside of a pattern. -/
  loose : Bool := false
  deriving DecidableEq, Repr

namespace Mentions

/-- What two parts say, one behind the other. -/
def append (left right : Mentions) : Mentions where
  used := left.used ++ right.used
  bound := left.bound ++ right.bound
  loose := left.loose || right.loose

instance : Append Mentions := ⟨append⟩

end Mentions

/-- A part of an object. -/
inductive Entry (α : Type) where
  | field (name : String) (value : α)
  /-- A field that has the value of the name that it has itself. -/
  | short (name : String)
  /-- A field with a default value, which stands for something in patterns only. -/
  | shortDefault (name : String) (value : α)
  /-- A field whose name is computed. -/
  | computed (name value : α)
  /-- Contributes its own fields. -/
  | spread (value : α)
  | method (mentions : Mentions)

/-- The tree of an expression. -/
inductive Tree where
  | number (x : Float)
  | text (s : String)
  | truth (b : Bool)
  | null
  /-- What a `return` without an expression gives. -/
  | nothing
  /-- A place in an array where no item is written. -/
  | hole
  | name (name : String)
  /-- A template: the texts, and the expressions between them. -/
  | template (texts : List String) (parts : List Tree)
  | paren (inner : Tree)
  /-- An array, and whether a comma stands behind its last part. -/
  | array (items : List (Element Tree)) (trailing : Bool)
  /-- An object, and whether a comma stands behind its last part. -/
  | object (entries : List (Entry Tree)) (trailing : Bool)
  | member (target : Tree) (name : String) (optional : Bool)
  | index (target key : Tree) (optional : Bool)
  | call (callee : Tree) (arguments : List (Element Tree)) (optional : Bool)
  | unary (op : UnaryOp) (operand : Tree)
  | binary (op : BinaryOp) (left right : Tree)
  | logical (op : LogicalOp) (left right : Tree)
  | conditional (test yes no : Tree)
  /-- A function whose parameters are names; `head` is what the parameters and their default values
  mention. -/
  | arrow (parameters : List String) (head : Mentions) (body : Tree)
  /-- An assignment; `written` is what the target mentions as such. -/
  | assign (target : Tree) (written : Mentions) (value : Tree)
  /-- A hidden field of a value, and whether it stands in a chain that may end early. -/
  | hidden (mentions : Mentions) (chained : Bool)
  /-- A part that no script may use. -/
  | other (mentions : Mentions)

end UiDoc.Script
