import UiDoc.Script.Tree

/-!
# The names in a script

The free names of a script are those that it uses and that no part of it introduces, wherever that
part stands.
-/

namespace UiDoc.Script

/-- Names that have a meaning of their own. -/
def ownNames : List String :=
  ["undefined", "NaN", "Infinity", "String", "Number", "Boolean", "Math", "JSON"]

namespace Tree

mutual

/-- The names in a tree. -/
def mentions : Tree → Mentions
  | .number _ | .text _ | .truth _ | .null | .nothing | .hole => {}
  | .name n => { used := [n] }
  | .template _ parts => mentionsOfAll parts
  | .paren inner => mentions inner
  | .array items _ => mentionsOfItems items
  | .object entries _ => mentionsOfEntries entries
  | .member target _ _ => mentions target
  | .index target key _ => mentions target ++ mentions key
  | .call callee arguments _ => mentions callee ++ mentionsOfItems arguments
  | .unary _ operand => mentions operand
  | .binary _ left right => mentions left ++ mentions right
  | .logical _ left right => mentions left ++ mentions right
  | .conditional test yes no => mentions test ++ (mentions yes ++ mentions no)
  | .arrow _ head body => head ++ mentions body
  | .assign _ written value => written ++ mentions value
  | .hidden inner _ => inner
  | .other inner => inner
termination_by structural t => t

/-- The names in trees. -/
def mentionsOfAll : List Tree → Mentions
  | [] => {}
  | tree :: trees => mentions tree ++ mentionsOfAll trees
termination_by structural t => t

/-- The names in the parts of an array. -/
def mentionsOfItems : List (Element Tree) → Mentions
  | [] => {}
  | .item tree :: rest => mentions tree ++ mentionsOfItems rest
  | .spread tree :: rest => mentions tree ++ mentionsOfItems rest
termination_by structural t => t

/-- The names in the parts of an object. -/
def mentionsOfEntries : List (Entry Tree) → Mentions
  | [] => {}
  | .field _ value :: rest => mentions value ++ mentionsOfEntries rest
  | .short n :: rest => { used := [n] } ++ mentionsOfEntries rest
  | .shortDefault n value :: rest =>
      { used := [n], loose := true } ++ (mentions value ++ mentionsOfEntries rest)
  | .computed key value :: rest => mentions key ++ (mentions value ++ mentionsOfEntries rest)
  | .spread value :: rest => mentions value ++ mentionsOfEntries rest
  | .method inner :: rest => inner ++ mentionsOfEntries rest
termination_by structural t => t

end

/-- The free names of a tree, each once, in the order of the text. -/
def free (tree : Tree) : List String :=
  let names := tree.mentions
  (names.used.filter fun n => !names.bound.contains n && !ownNames.contains n).eraseDups

end Tree

end UiDoc.Script
