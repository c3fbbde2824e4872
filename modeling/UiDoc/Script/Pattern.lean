import UiDoc.Script.Names

/-!
# Patterns in a script

What an assignment writes to, and what a parameter introduces, look like expressions: arrays and
objects stand for the parts of a value.  Only when a script goes on with `=` or `=>` is it known
that an expression was a pattern.
-/

namespace UiDoc.Script

/-- Why an expression is no list of parameters. -/
inductive Misfit where
  /-- It is some other expression. -/
  | expression
  /-- It is neither. -/
  | mistake
  deriving DecidableEq, Repr

namespace Tree

/-- Whether a tree is a chain of accesses that may end early. -/
def isChain : Tree → Bool
  | .member target _ optional => optional || isChain target
  | .index target _ optional => optional || isChain target
  | .call callee _ optional => optional || isChain callee
  | .hidden _ chained => chained
  | _ => false

/-- What a name or a field mentions when it is written to; `none` for other trees. -/
def simplePlace? : Tree → Option Mentions
  | .paren inner => simplePlace? inner
  | .name n => some { used := [n] }
  | .member target n optional =>
      if isChain (.member target n optional) then none else some target.mentions
  | .index target key optional =>
      if isChain (.index target key optional) then none
      else some (target.mentions ++ key.mentions)
  | .hidden inner chained => if chained then none else some inner
  | _ => none

mutual

/-- What a tree mentions when it is written to; `none` if it cannot be. -/
def place? : Tree → Option Mentions
  | .array items trailing => placeItems? trailing items
  | .object entries trailing => placeEntries? trailing entries
  | tree => simplePlace? tree
termination_by structural t => t

/-- Likewise for a part, which may have a default value. -/
def placeDefault? : Tree → Option Mentions
  | .assign target written value => do
      let _ ← place? target
      return written ++ value.mentions
  | .array items trailing => placeItems? trailing items
  | .object entries trailing => placeEntries? trailing entries
  | tree => simplePlace? tree
termination_by structural t => t

/-- Likewise for the parts of an array; what takes the rest is the last one. -/
def placeItems? (trailing : Bool) : List (Element Tree) → Option Mentions
  | [] => some {}
  | .item .hole :: rest => placeItems? trailing rest
  | .item tree :: rest => do
      let first ← placeDefault? tree
      return first ++ (← placeItems? trailing rest)
  | [.spread tree] => if trailing then none else place? tree
  | .spread _ :: _ :: _ => none
termination_by structural t => t

/-- Likewise for the parts of an object. -/
def placeEntries? (trailing : Bool) : List (Entry Tree) → Option Mentions
  | [] => some {}
  | .field _ value :: rest => do
      let first ← placeDefault? value
      return first ++ (← placeEntries? trailing rest)
  | .short n :: rest => do
      return { used := [n] } ++ (← placeEntries? trailing rest)
  | .shortDefault n value :: rest => do
      return { used := [n] } ++ (value.mentions ++ (← placeEntries? trailing rest))
  | .computed key value :: rest => do
      let first ← placeDefault? value
      return key.mentions ++ (first ++ (← placeEntries? trailing rest))
  | [.spread value] => if trailing then none else simplePlace? value
  | .spread _ :: _ :: _ | .method _ :: _ => none
termination_by structural t => t

end

mutual

/-- What a tree mentions as a parameter. -/
def binder : Tree → Except Misfit Mentions
  | .name n => .ok { bound := [n] }
  | .array items trailing => binderOfItems trailing items
  | .object entries trailing => binderOfEntries trailing entries
  | _ => .error .expression
termination_by structural t => t

/-- Likewise for a part, which may have a default value. -/
def binderDefault : Tree → Except Misfit Mentions
  | .assign target _ value => do
      let first ← binder target
      return first ++ value.mentions
  | .name n => .ok { bound := [n] }
  | .array items trailing => binderOfItems trailing items
  | .object entries trailing => binderOfEntries trailing entries
  | _ => .error .expression
termination_by structural t => t

/-- Likewise for the parts of an array; what takes the rest is the last one. -/
def binderOfItems (trailing : Bool) : List (Element Tree) → Except Misfit Mentions
  | [] => .ok {}
  | .item .hole :: rest => binderOfItems trailing rest
  | .item tree :: rest => do
      let first ← binderDefault tree
      return first ++ (← binderOfItems trailing rest)
  | [.spread tree] => do
      let last ← binder tree
      if trailing then .error .mistake else return last
  | .spread tree :: next :: rest => do
      let _ ← binder tree
      let _ ← binderOfItems trailing (next :: rest)
      .error .mistake
termination_by structural t => t

/-- Likewise for the parts of an object; what takes the rest is a name. -/
def binderOfEntries (trailing : Bool) : List (Entry Tree) → Except Misfit Mentions
  | [] => .ok {}
  | .field _ value :: rest => do
      let first ← binderDefault value
      return first ++ (← binderOfEntries trailing rest)
  | .short n :: rest => do
      return { bound := [n] } ++ (← binderOfEntries trailing rest)
  | .shortDefault n value :: rest => do
      return { bound := [n] } ++ (value.mentions ++ (← binderOfEntries trailing rest))
  | .computed key value :: rest => do
      let first ← binderDefault value
      return key.mentions ++ (first ++ (← binderOfEntries trailing rest))
  | .spread value :: rest => do
      let last ← binder value
      let _ ← binderOfEntries trailing rest
      match value, rest with
      | .name _, [] => if trailing then .error .mistake else return last
      | _, _ => .error .mistake
  | .method _ :: _ => .error .expression
termination_by structural t => t

end

end Tree

/-- The parameters of a function. -/
structure Head where
  /-- Their names, if all of them are names. -/
  parameters : Option (List String) := some []
  /-- What they and their default values mention. -/
  mentions : Mentions := {}

/-- The parameters with one more, which is a name if `name` is one. -/
def Head.push (head : Head) (name : Option String) (mentions : Mentions) : Head where
  parameters := do return (← head.parameters) ++ [← name]
  mentions := head.mentions ++ mentions

/-- What stands between parentheses, and whether a comma stands at its end. -/
structure Enclosed where
  items : List (Element Tree)
  trailing : Bool

namespace Enclosed

/-- Adds parameters to those of a head; what takes the rest of the arguments is the last one. -/
def headFrom (trailing : Bool) (head : Head) : List (Element Tree) → Except Misfit Head
  | [] => .ok head
  | .item (.name n) :: rest => headFrom trailing (head.push (some n) { bound := [n] }) rest
  | .item (.assign (.name n) _ value) :: rest =>
      headFrom trailing (head.push (some n) ({ bound := [n] } ++ value.mentions)) rest
  | .item tree :: rest => do
      let mentions ← tree.binderDefault
      headFrom trailing (head.push none mentions) rest
  | [.spread tree] => do
      let mentions ← tree.binder
      if trailing then .error .mistake else return head.push none mentions
  | .spread _ :: _ :: _ => .error .mistake

/-- Parentheses with parameters between them. -/
def head (enclosed : Enclosed) : Except Misfit Head :=
  headFrom enclosed.trailing {} enclosed.items

/-- Several expressions with commas between them. -/
def sequence? : List (Element Tree) → Option Mentions
  | [] => some {}
  | .item tree :: rest => (sequence? rest).map (tree.mentions ++ ·)
  | .spread _ :: _ => none

/-- Parentheses with an expression between them. -/
def expression? (enclosed : Enclosed) : Option Tree :=
  match enclosed.items, enclosed.trailing with
  | [.item tree], false => some (.paren tree)
  | items@(_ :: _ :: _), false => (sequence? items).map fun mentions => .paren (.other mentions)
  | _, _ => none

end Enclosed

end UiDoc.Script
