/-!
# Diagnostics

What goes wrong while a document is interpreted is not an error: the interpretation goes on and
leaves an entry.  Most kinds of entry are made once for each site.
-/

namespace UiDoc

/-- What an entry is about. -/
inductive DiagnosticKind where
  | unknownComponentType
  | unsupportedExpression
  | circularDefinition
  | depthExceeded
  | frameBudgetExceeded
  | undefinedBinding
  | deprecatedComponent
  | loopSourceNotArray
  deriving DecidableEq, Repr

/-- The name of a kind. -/
def DiagnosticKind.name : DiagnosticKind → String
  | unknownComponentType => "unknownComponentType"
  | unsupportedExpression => "unsupportedExpression"
  | circularDefinition => "circularDefinition"
  | depthExceeded => "depthExceeded"
  | frameBudgetExceeded => "frameBudgetExceeded"
  | undefinedBinding => "undefinedBinding"
  | deprecatedComponent => "deprecatedComponent"
  | loopSourceNotArray => "loopSourceNotArray"

/-- One entry. -/
structure Diagnostic where
  kind : DiagnosticKind
  /-- The expression, type or node that the entry is about. -/
  site : String
  message : String
  deriving DecidableEq, Repr

/-- The entries of one pass, and the sites that have been warned about. -/
structure Diagnostics where
  /-- The entries, the last one first. -/
  reversed : List Diagnostic := []
  /-- The kinds and sites of which no further warning is made. -/
  warned : List (DiagnosticKind × String) := []
  deriving DecidableEq, Repr

namespace Diagnostics

/-- No entries. -/
def empty : Diagnostics := {}

/-- The entries in the order in which they were made. -/
def entries (log : Diagnostics) : List Diagnostic :=
  log.reversed.reverse

/-- Makes an entry. -/
def record (kind : DiagnosticKind) (site message : String) (log : Diagnostics) : Diagnostics :=
  { log with reversed := ⟨kind, site, message⟩ :: log.reversed }

/-- Makes an entry, unless there has been such a warning about the site. -/
def warnOnce (kind : DiagnosticKind) (site message : String) (log : Diagnostics) : Diagnostics :=
  if (kind, site) ∈ log.warned then log
  else record kind site message { log with warned := (kind, site) :: log.warned }

/-- The number of entries of a kind. -/
def count (log : Diagnostics) (kind : DiagnosticKind) : Nat :=
  log.reversed.countP fun entry => entry.kind = kind

/-- Whether there are no entries. -/
def isEmpty (log : Diagnostics) : Bool :=
  log.reversed.isEmpty

end Diagnostics

end UiDoc
