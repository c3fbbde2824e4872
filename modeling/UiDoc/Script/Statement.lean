import UiDoc.Script.Names

/-!
# Statements of a script

Of the statements in the body of a function, scripts may use only one `return`; texts without
meaning may stand in front of it.
-/

namespace UiDoc.Script

/-- A statement. -/
inductive Statement where
  | expression (tree : Tree)
  | giveBack (value : Option Tree)
  /-- A statement that no script may use. -/
  | other (mentions : Mentions)

namespace Statement

/-- The names in a statement. -/
def mentions : Statement → Mentions
  | .expression tree => tree.mentions
  | .giveBack value => (value.map Tree.mentions).getD {}
  | .other inner => inner

/-- The names in statements. -/
def mentionsOfAll (statements : List Statement) : Mentions :=
  statements.foldr (fun statement rest => statement.mentions ++ rest) {}

/-- The statements behind the texts without meaning at the start of a body. -/
def behindTexts : List Statement → List Statement
  | .expression (.text _) :: rest => behindTexts rest
  | statements => statements

end Statement

end UiDoc.Script
