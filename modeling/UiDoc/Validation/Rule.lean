/-!
# Rules for documents

Every document can be interpreted, but not every document means something.  A rule says what an
author can rely on if it is kept.
-/

namespace UiDoc

/-- A rule that a document may break. -/
inductive Rule where
  | json
  | emptyNode
  | loopItemVar
  | emptyCondition
  | duplicateId
  | unknownType
  | deprecated
  | unsupportedExpression
  | emptyConditional
  | loopWithoutChildren
  | loopWithoutSource
  | eventWithoutActions
  deriving DecidableEq, Repr

namespace Rule

/-- All rules. -/
def all : List Rule := [
  json, emptyNode, loopItemVar, emptyCondition, duplicateId, unknownType, deprecated,
  unsupportedExpression, emptyConditional, loopWithoutChildren, loopWithoutSource,
  eventWithoutActions]

/-- The code of a rule. -/
def code : Rule → String
  | json => "UI-ERR-JSON"
  | emptyNode => "UI-ERR-EMPTY-NODE"
  | loopItemVar => "UI-ERR-LOOP-ITEM-VAR"
  | emptyCondition => "UI-ERR-EMPTY-CONDITION"
  | duplicateId => "UI-WARN-DUPLICATE-ID"
  | unknownType => "UI-WARN-UNKNOWN-TYPE"
  | deprecated => "UI-WARN-DEPRECATED"
  | unsupportedExpression => "UI-WARN-UNSUPPORTED-EXPR"
  | emptyConditional => "UI-WARN-EMPTY-CONDITIONAL"
  | loopWithoutChildren => "UI-WARN-LOOP-NO-CHILDREN"
  | loopWithoutSource => "UI-WARN-LOOP-NO-SOURCE"
  | eventWithoutActions => "UI-WARN-EVENT-NO-ACTIONS"

/-- Whether a document that breaks the rule is invalid. -/
def isError : Rule → Bool
  | json | emptyNode | loopItemVar | emptyCondition => true
  | _ => false

/-- What holds of documents, or happens to those that break the rule. -/
def guarantee : Rule → String
  | json => "Documents are JSON objects matching the node schema."
  | emptyNode => "Every node renders something: a type, a conditional or children."
  | loopItemVar => "Loop items are always reachable through a named variable."
  | emptyCondition => "A conditional always has a condition to evaluate."
  | duplicateId => "Node ids identify one node and its event handlers."
  | unknownType => "Unknown component types render nothing."
  | deprecated => "Deprecated components still render but may be removed."
  | unsupportedExpression =>
      "Unsupported conditions render as true; unsupported placeholders and transforms read as " ++
        "undefined or untransformed."
  | emptyConditional => "A conditional without branches always renders nothing."
  | loopWithoutChildren => "A loop repeats its children; without children it renders no items."
  | loopWithoutSource => "A loop without a source renders no items."
  | eventWithoutActions => "An event handler with no actions dispatches nothing."

/-- The rule with a code. -/
def ofCode? (text : String) : Option Rule :=
  all.find? fun rule => rule.code = text

/-- The guarantee of the rule with a code. -/
def guaranteeOf (text : String) : String :=
  match ofCode? text with
  | some rule => rule.guarantee
  | none => "Unknown validation rule."

end Rule

end UiDoc
