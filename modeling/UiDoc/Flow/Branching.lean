import UiDoc.Document.Component
import UiDoc.Expr.Evaluation

/-!
# Conditionals

A component with a conditional shows one of its branches or nothing, and never itself.  A branch
that is missing and one that is declared to be empty show nothing for different reasons.
-/

namespace UiDoc

/-- Why a conditional shows nothing. -/
inductive EmptyReason where
  | branchAbsent
  | explicitNothing
  deriving DecidableEq, Repr

/-- What a component shows. -/
inductive Outcome where
  /-- Itself, since there is no conditional. -/
  | unconditional
  | empty (reason : EmptyReason)
  | branch (content : Content)

/-- What a branch shows. -/
def Branch.outcome : Branch → Outcome
  | .absent => .empty .branchAbsent
  | .nothing => .empty .explicitNothing
  | .content (.nodes []) => .empty .explicitNothing
  | .content shown => .branch shown

/-- What a conditional shows. -/
def Conditional.outcome (c : Conditional) (scope : Scope) : Logged Outcome := do
  let passed ← Expr.holds scope c.condition
  pure (if passed then c.yes.outcome else c.no.outcome)

/-- What a component shows. -/
def Component.outcome (c : Component) (scope : Scope) : Logged Outcome :=
  match c.conditional with
  | some conditional => conditional.outcome scope
  | none => pure .unconditional

end UiDoc
