import UiDoc.Diagnostics
import UiDoc.Script.Cache

/-!
# Journals

The interpretation of a document makes diagnostic entries on the way, and keeps the scripts that it
has compiled.  The entries belong to one pass; the scripts outlive it.
-/

namespace UiDoc

/-- The entries of a pass, and the scripts compiled so far. -/
structure Journal extends Diagnostics where
  scripts : Script.Cache := {}

namespace Journal

/-- A journal without entries and scripts. -/
def empty : Journal := {}

/-- Makes an entry. -/
def record (kind : DiagnosticKind) (site message : String) (j : Journal) : Journal :=
  { j with toDiagnostics := j.toDiagnostics.record kind site message }

/-- Makes an entry, unless there has been such a warning about the site. -/
def warnOnce (kind : DiagnosticKind) (site message : String) (j : Journal) : Journal :=
  { j with toDiagnostics := j.toDiagnostics.warnOnce kind site message }

end Journal

/-- A computation that makes diagnostic entries and keeps compiled scripts. -/
abbrev Logged := StateM Journal

namespace Logged

/-- Makes an entry. -/
def record (kind : DiagnosticKind) (site message : String) : Logged Unit :=
  modify (Journal.record kind site message)

/-- Makes an entry, unless there has been such a warning about the site. -/
def warnOnce (kind : DiagnosticKind) (site message : String) : Logged Unit :=
  modify (Journal.warnOnce kind site message)

/-- Runs a script, which is compiled when it is first used; `none` if it cannot be compiled or
run. -/
def script (source : String) (scope : Scope) (args : List Value) : Logged (Option Value) := do
  let journal ← get
  let (result, scripts) := journal.scripts.evaluate source scope args
  set { journal with scripts }
  return result

end Logged

end UiDoc
