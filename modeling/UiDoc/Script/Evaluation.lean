import UiDoc.Script.Builtin
import UiDoc.Script.TextMethod
import UiDoc.Script.ArrayMethod

/-!
# Evaluating terms

Every term that is evaluated takes one step.  A name denotes the latest parameter of that name, else
what it denotes in the scope.
-/

namespace UiDoc.Script

/-- The value of a name in a scope, where `data` is the root unless that has a value of the name. -/
def scopeValue? (scope : Scope) (name : String) : Value :=
  match scope.named? name with
  | some v => some v
  | none => if name = "data" then some (.obj scope.merged) else none

/-- The value of a name. -/
def nameValue (scope : Scope) (name : String) : Run Value := do
  let machine ← get
  match machine.locals.lookup name with
  | some v => pure v
  | none =>
      match scopeValue? scope name with
      | some v => pure (some v)
      | none => throw .unknownName

/-- The items that a value spreads into an array. -/
def spreadItems : Value → Run (List Json)
  | some (.arr items) => do
      Run.charge items.length
      pure items
  | some (.str s) => do
      Run.charge s.utf8ByteSize
      pure (s.toList.map fun c => .str (String.singleton c))
  | _ => throw .mistyped

/-- The fields that a value spreads into an object. -/
def spreadFields : Value → Run (Record Json)
  | some (.obj fields) => do
      Run.charge fields.length
      pure fields
  | _ => pure []

/-- Sets a field to a value; a field that is undefined is left out. -/
def setField (fields : Record Json) (name : String) (v : Value) : Record Json :=
  match v with
  | some v => fields.insert name v
  | none => fields

/-- The value of a method of any value that is not `null`. -/
def callMethod (receiver : Value) (method : Method) (args : List Arg) : Run Value :=
  match receiver with
  | some (.arr items) => method.applyToArray items args
  | some (.str s) => Run.ofExcept (method.applyToText s.toList args)
  | some (.num n) => Run.ofExcept (method.applyToNumber n.toFloat args)
  | v => if method = .toString then pure (some (.str (Value.text v))) else throw .mistyped

mutual

/-- The value of a term. -/
def eval (scope : Scope) : Term → Run Value
  | .literal v => do
      Run.charge 1
      pure (some v)
  | .undefined => do
      Run.charge 1
      pure none
  | .name name => do
      Run.charge 1
      nameValue scope name
  | .member target name optional => do
      Run.charge 1
      let v ← eval scope target
      Run.ofExcept (access v name optional)
  | .index target key optional => do
      Run.charge 1
      let v ← eval scope target
      let k ← eval scope key
      Run.ofExcept (access v (Value.text k) optional)
  | .unary op operand => do
      Run.charge 1
      let v ← eval scope operand
      pure (op.apply v)
  | .binary op left right => do
      Run.charge 1
      let l ← eval scope left
      let r ← eval scope right
      Run.ofExcept (op.apply l r)
  | .logical op left right => do
      Run.charge 1
      let l ← eval scope left
      if op.decides l then pure l else eval scope right
  | .conditional test yes no => do
      Run.charge 1
      let t ← eval scope test
      if Value.truthy t then eval scope yes else eval scope no
  | .template texts parts => do
      Run.charge 1
      evalTemplate scope texts parts ""
  | .array items => do
      Run.charge 1
      let items ← evalItems scope items
      Run.ofExcept (bounded (some (.arr items)))
  | .object entries => do
      Run.charge 1
      let fields ← evalEntries scope entries []
      Run.ofExcept (bounded (some (.obj fields)))
  | .builtin function arguments => do
      Run.charge 1
      let args ← evalArguments scope arguments
      Run.ofExcept (bounded (function.apply args))
  | .method receiver method optional arguments => do
      Run.charge 1
      let v ← eval scope receiver
      if Value.nullish v then
        if optional then pure none else throw .mistyped
      else
        let args ← evalArguments scope arguments
        let result ← callMethod v method args
        Run.built result
  | .function _ _ => do
      Run.charge 1
      throw .mistyped
termination_by structural t => t

/-- The text of a template behind `sofar`. -/
def evalTemplate (scope : Scope) (texts : List String) : List Term → String → Run Value
  | [], sofar => Run.ofExcept (bounded (some (.str (sofar ++ texts.headD ""))))
  | part :: parts, sofar => do
      let v ← eval scope part
      let text := sofar ++ (texts.headD "" ++ Value.text v)
      let _ ← Run.ofExcept (bounded (some (.str text)))
      evalTemplate scope texts.tail parts text
termination_by structural t => t

/-- The items of an array. -/
def evalItems (scope : Scope) : List (Element Term) → Run (List Json)
  | [] => pure []
  | .item term :: rest => do
      let v ← eval scope term
      let items ← evalItems scope rest
      pure (v.getD .null :: items)
  | .spread term :: rest => do
      let v ← eval scope term
      let front ← spreadItems v
      let items ← evalItems scope rest
      pure (front ++ items)
termination_by structural t => t

/-- The fields of an object on top of others. -/
def evalEntries (scope : Scope) :
    List (Option String × Term) → Record Json → Run (Record Json)
  | [], fields => pure fields
  | (some name, term) :: rest, fields => do
      let v ← eval scope term
      evalEntries scope rest (setField fields name v)
  | (none, term) :: rest, fields => do
      let v ← eval scope term
      let more ← spreadFields v
      evalEntries scope rest (fields.extend more)
termination_by structural t => t

/-- The arguments of a call. -/
def evalArguments (scope : Scope) : List Term → Run (List Arg)
  | [] => pure []
  | .function parameters body :: rest => do
      let args ← evalArguments scope rest
      pure (.callback (Run.withLocals parameters (eval scope body)) :: args)
  | term :: rest => do
      let v ← eval scope term
      let args ← evalArguments scope rest
      pure (.value v :: args)
termination_by structural t => t

end

end UiDoc.Script
