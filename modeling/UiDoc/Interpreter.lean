import UiDoc.Event.Firing
import UiDoc.Render.Component

/-!
# Interpreters

An interpreter renders documents one after the other.  Its guard and its registry keep what they
have counted and found out from one pass to the next, and a script is compiled only once.
-/

namespace UiDoc

/-- An interpreter. -/
structure Interpreter where
  config : Config
  guard : Guard
  registry : Registry
  /-- The scripts compiled so far. -/
  scripts : Script.Cache := {}

/-- What a document is rendered with. -/
structure Request where
  root : Component
  data : Json
  state : Option Json := none
  bindings : Option Json := none

namespace Request

/-- The scope of the root. -/
def scope (r : Request) : Scope where
  data := r.data
  state := r.state
  bindings := r.bindings

/-- The key of the root. -/
def key (r : Request) : String :=
  if r.root.id = "" then "root" else r.root.id

end Request

namespace Output

/-- The output of a pass that ended with nodes or was halted. -/
def ofResult (log : Diagnostics) : Except Halt (List Node) → Output
  | .ok [] => ⟨[], .empty, log⟩
  | .ok nodes => ⟨nodes, .rendered, log⟩
  | .error .halt => ⟨[], .halted, log⟩

end Output

namespace Interpreter

/-- An interpreter that has not rendered anything yet. -/
def ofConfig (config : Config) (registry : Registry) (now : Nat) : Interpreter where
  config
  guard := .ofConfig config now
  registry

/-- The tick of a host. -/
def tick (now : Nat) (i : Interpreter) : Interpreter :=
  { i with guard := i.guard.tick now }

/-- The state at the beginning of a pass. -/
def beginPass (i : Interpreter) (now : Nat) : Pass :=
  ⟨i.registry, i.guard.beginRender now, { Journal.empty with scripts := i.scripts }⟩

/-- Renders a document.  There is one more level than the guard lets through, where it cuts off. -/
def render (files : Files) (now : Nat) (request : Request) (i : Interpreter) :
    Output × Interpreter :=
  let renderer := Render.upTo ⟨files, i.config.devMode⟩ (i.guard.maxDepth + 1)
  let (result, pass) :=
    (renderer request.root request.scope request.key {}).run.run (i.beginPass now)
  (.ofResult pass.journal.toDiagnostics result,
    { i with guard := pass.guard, registry := pass.registry, scripts := pass.journal.scripts })

end Interpreter

namespace BoundHandler

/-- The scope in which a handler is fired: its own variables and the payload. -/
def scope (h : BoundHandler) (payload : Option Json) (data : Json) (state : Option Json) : Scope :=
  let bound : Scope := { data, context := h.context, state }
  match payload with
  | some value => bound.bind "payload" value
  | none => bound

/-- Whether a handler runs for a payload. -/
def dispatch (h : BoundHandler) (payload : Option Json) (data : Json) (state : Option Json) :
    Bool :=
  ((h.handler.fires (h.scope payload data state)).run .empty).1

end BoundHandler

end UiDoc
