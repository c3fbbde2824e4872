import UiDoc.Script.Tree

/-!
# Terms of a script

A term is what a script means, once everything that no script may use has been refused: only some
functions and methods can be called, and functions are either the whole script or arguments.
-/

namespace UiDoc.Script

/-- The functions that every script can call. -/
inductive Builtin where
  | string
  | number
  | boolean
  | round
  | floor
  | ceil
  | abs
  | min
  | max
  | stringify
  deriving DecidableEq, Repr

/-- The methods of texts, numbers and arrays. -/
inductive Method where
  | toUpperCase
  | toLowerCase
  | trim
  | trimStart
  | trimEnd
  | startsWith
  | endsWith
  | charAt
  | substring
  | split
  | replace
  | replaceAll
  | padStart
  | padEnd
  | repeated
  | includes
  | indexOf
  | slice
  | concat
  | toString
  | toFixed
  | map
  | filter
  | find
  | findIndex
  | any
  | every
  | reduce
  | join
  | reverse
  deriving DecidableEq, Repr

/-- A function by its name. -/
def Builtin.named? (name : String) : Option Builtin :=
  [("String", string), ("Number", number), ("Boolean", boolean)].lookup name

/-- A function by the names of its owner and of itself. -/
def Builtin.owned? (owner name : String) : Option Builtin :=
  if owner = "Math" then
    [("round", round), ("floor", floor), ("ceil", ceil), ("abs", abs), ("min", min),
      ("max", max)].lookup name
  else if owner = "JSON" then [("stringify", stringify)].lookup name
  else none

/-- A method by its name. -/
def Method.named? (name : String) : Option Method :=
  [("toUpperCase", toUpperCase), ("toLowerCase", toLowerCase), ("trim", trim),
    ("trimStart", trimStart), ("trimEnd", trimEnd), ("startsWith", startsWith),
    ("endsWith", endsWith), ("charAt", charAt), ("substring", substring), ("split", split),
    ("replace", replace), ("replaceAll", replaceAll), ("padStart", padStart), ("padEnd", padEnd),
    ("repeat", repeated), ("includes", includes), ("indexOf", indexOf), ("slice", slice),
    ("concat", concat), ("toString", toString), ("toFixed", toFixed), ("map", map),
    ("filter", filter), ("find", find), ("findIndex", findIndex), ("some", any),
    ("every", every), ("reduce", reduce), ("join", join), ("reverse", reverse)].lookup name

/-- A term. -/
inductive Term where
  | literal (value : Json)
  | undefined
  | name (name : String)
  | member (target : Term) (name : String) (optional : Bool)
  | index (target key : Term) (optional : Bool)
  | unary (op : UnaryOp) (operand : Term)
  | binary (op : BinaryOp) (left right : Term)
  | logical (op : LogicalOp) (left right : Term)
  | conditional (test yes no : Term)
  | template (texts : List String) (parts : List Term)
  | array (items : List (Element Term))
  /-- An object; what it spreads has no name. -/
  | object (entries : List (Option String × Term))
  | builtin (function : Builtin) (arguments : List Term)
  | method (receiver : Term) (method : Method) (optional : Bool) (arguments : List Term)
  | function (parameters : List String) (body : Term)

namespace Term

/-- The term of a name.  Numbers that JSON cannot express are `null`. -/
def ofName (n : String) : Term :=
  if n = "undefined" then .undefined
  else if n = "NaN" ∨ n = "Infinity" then .literal .null
  else .name n

/-- The name in front of a function that belongs to it. -/
def owner? : Tree → Option String
  | .name n => if n = "Math" ∨ n = "JSON" then some n else none
  | _ => none

mutual

/-- The term of a tree; `none` if the tree uses what no script may use. -/
def ofTree? : Tree → Option Term
  | .number x => some (.literal (Value.ofFloat x))
  | .text s => some (.literal (.str s))
  | .truth b => some (.literal (.bool b))
  | .null => some (.literal .null)
  | .nothing => some .undefined
  | .name n => some (ofName n)
  | .template texts parts => (ofTrees? parts).map (.template texts ·)
  | .paren inner => ofTree? inner
  | .array items _ => (ofItems? items).map .array
  | .object entries _ => (ofEntries? entries).map .object
  | .member target n optional => (ofTree? target).map (.member · n optional)
  | .index target key optional => do
      let target ← ofTree? target
      let key ← ofTree? key
      return .index target key optional
  | .call (.name n) arguments _ => do
      let function ← Builtin.named? n
      let arguments ← ofArguments? arguments
      return .builtin function arguments
  | .call (.member target n optional) arguments _ =>
      match owner? target with
      | some owner => do
          let function ← Builtin.owned? owner n
          let arguments ← ofArguments? arguments
          return .builtin function arguments
      | none => do
          let method ← Method.named? n
          let receiver ← ofTree? target
          let arguments ← ofArguments? arguments
          return .method receiver method optional arguments
  | .unary op operand => (ofTree? operand).map (.unary op)
  | .binary op left right => do
      let left ← ofTree? left
      let right ← ofTree? right
      return .binary op left right
  | .logical op left right => do
      let left ← ofTree? left
      let right ← ofTree? right
      return .logical op left right
  | .conditional test yes no => do
      let test ← ofTree? test
      let yes ← ofTree? yes
      let no ← ofTree? no
      return .conditional test yes no
  | .arrow parameters _ body => (ofTree? body).map (.function parameters)
  | .call _ _ _ | .assign _ _ _ | .hidden _ _ | .hole | .other _ => none
termination_by structural t => t

/-- The terms of trees. -/
def ofTrees? : List Tree → Option (List Term)
  | [] => some []
  | tree :: trees => do
      let term ← ofTree? tree
      let terms ← ofTrees? trees
      return term :: terms
termination_by structural t => t

/-- The terms of the arguments of a call, none of which may be spread. -/
def ofArguments? : List (Element Tree) → Option (List Term)
  | [] => some []
  | .item tree :: rest => do
      let term ← ofTree? tree
      let terms ← ofArguments? rest
      return term :: terms
  | _ :: _ => none
termination_by structural t => t

/-- The terms of the parts of an array. -/
def ofItems? : List (Element Tree) → Option (List (Element Term))
  | [] => some []
  | .item tree :: rest => do
      let term ← ofTree? tree
      let terms ← ofItems? rest
      return .item term :: terms
  | .spread tree :: rest => do
      let term ← ofTree? tree
      let terms ← ofItems? rest
      return .spread term :: terms
termination_by structural t => t

/-- The terms of the parts of an object, which are fields with names of their own, and spreads. -/
def ofEntries? : List (Entry Tree) → Option (List (Option String × Term))
  | [] => some []
  | .field n tree :: rest => do
      let term ← ofTree? tree
      let terms ← ofEntries? rest
      return (some n, term) :: terms
  | .short n :: rest => (ofEntries? rest).map ((some n, ofName n) :: ·)
  | .spread tree :: rest => do
      let term ← ofTree? tree
      let terms ← ofEntries? rest
      return (none, term) :: terms
  | .shortDefault _ _ :: _ | .computed _ _ :: _ | .method _ :: _ => none
termination_by structural t => t

end

end Term

end UiDoc.Script
