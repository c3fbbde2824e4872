import UiDoc.Document.Decoder
import UiDoc.Registry.Resolution
import UiDoc.Validation.Texts

/-!
# Validating documents

The components of a document are visited in order: the branches of a conditional before the
children.  On the way the validator remembers where each id was first used, and asks the registry,
if there is one, for each type.
-/

namespace UiDoc

/-- What the validator knows on its way. -/
structure Inspection where
  registry : Option Registry
  /-- The places where ids are first used. -/
  firstUses : Record Place := []

/-- A part of a validation. -/
abbrev Inspecting := StateM Inspection

namespace Validation

/-- The issues of the id of a component. -/
def ofId (place : Place) (id : String) : Inspecting (List Issue) := do
  let known := (← get).firstUses
  if id = "" then pure []
  else
    match known.find? id with
    | some first =>
        pure [⟨.duplicateId, place, "id '" ++ id ++ "' is already used at " ++ first.text⟩]
    | none =>
        modify fun s => { s with firstUses := known.insert id place }
        pure []

/-- What is said of a type that is deprecated. -/
def deprecationMessage (kind : String) (notice : Option String) : String :=
  "'" ++ kind ++ "' is deprecated" ++
    match notice with
    | some text => ": " ++ text
    | none => ""

/-- The issues of a type that a registry has been asked for. -/
def ofAnswer (place : Place) (kind : String) (r : Registry) (found : Option Renderable) :
    List Issue :=
  if found.isNone then
    [⟨.unknownType, place, "no component registered for type '" ++ kind ++ "'"⟩]
  else
    match (r.entry? kind).filter RegistryEntry.isDeprecated with
    | some entry => [⟨.deprecated, place, deprecationMessage kind entry.notice⟩]
    | none => []

/-- The issues of the type of a component. -/
def ofType (files : Files) (place : Place) (c : Component) : Inspecting (List Issue) := do
  match (← get).registry with
  | none => pure []
  | some r =>
      if c.kind = "" || c.isSlot then pure []
      else
        let (found, r) := (Registry.resolve files c.kind).run r
        modify fun s => { s with registry := some r }
        pure (ofAnswer place c.kind r found)

/-- Whether a component shows nothing at all. -/
def showsNothing (c : Component) : Bool :=
  c.kind = "" && c.conditional.isNone && c.children.isNone

/-- The issues of a component that shows nothing. -/
def ofNode (place : Place) (c : Component) : List Issue :=
  if showsNothing c then
    [⟨.emptyNode, place, "node has no type, conditional or children"⟩]
  else []

/-- The issues of a component apart from those of what is inside of it and of its loop. -/
def ofHead (files : Files) (place : Place) (c : Component) : Inspecting (List Issue) := do
  let forId ← ofId place c.id
  let forType ← ofType files place c
  pure (ofNode place c ++ forId ++ forType ++ ofProps place c ++ ofOption (ofEvents place) c.events)

/-- The issues of a conditional without branches. -/
def ofBranches (place : Place) : Branch → Branch → List Issue
  | .absent, .absent =>
      [⟨.emptyConditional, place, "conditional declares neither `then` nor `else`"⟩]
  | _, _ => []

mutual

/-- The issues of a component and of everything inside of it. -/
def ofComponent (files : Files) (place : Place) : Component → Inspecting (List Issue)
  | { id, kind, props, className, style, bindings, dataBinding, events, conditional, loop,
      children } => do
      let head ← ofHead files place
        { id, kind, props, className, style, bindings, dataBinding, events, conditional, loop,
          children }
      let inConditional ← ofConditional files (place.field "conditional") conditional
      let inLoop := ofOption (fun l => ofLoop (place.field "loop") l children) loop
      let inside ← ofChildren files (place.field "children") children
      pure (head ++ inConditional ++ inLoop ++ inside)
termination_by structural c => c

/-- The issues of a conditional. -/
def ofConditional (files : Files) (place : Place) :
    Option Conditional → Inspecting (List Issue)
  | none => pure []
  | some { condition, yes, no } => do
      let inYes ← ofBranch files (place.field "then") yes
      let inNo ← ofBranch files (place.field "else") no
      pure (ofCondition place condition ++ ofBranches place yes no ++ inYes ++ inNo)
termination_by structural c => c

/-- The issues of a branch. -/
def ofBranch (files : Files) (place : Place) : Branch → Inspecting (List Issue)
  | .absent => pure []
  | .nothing => pure []
  | .content content => ofContent files place content
termination_by structural b => b

/-- The issues of the children of a component. -/
def ofChildren (files : Files) (place : Place) : Option Content → Inspecting (List Issue)
  | none => pure []
  | some content => ofContent files place content
termination_by structural c => c

/-- The issues of content. -/
def ofContent (files : Files) (place : Place) : Content → Inspecting (List Issue)
  | .text template => pure (ofTemplate place template)
  | .node c => ofComponent files place c
  | .nodes list => ofComponents files place 0 list
termination_by structural c => c

/-- The issues of components from an index on. -/
def ofComponents (files : Files) (place : Place) (index : Nat) :
    List Component → Inspecting (List Issue)
  | [] => pure []
  | c :: rest => do
      let first ← ofComponent files (place.item index) c
      let others ← ofComponents files place (index + 1) rest
      pure (first ++ others)
termination_by structural list => list

end

end Validation

namespace Report

/-- The report of a document. -/
def ofDocument (files : Files) (registry : Option Registry) (c : Component) : Report :=
  ofIssues ((Validation.ofComponent files .root c).run ⟨registry, []⟩).1

/-- The issue of a text that is no document. -/
def unreadable : Issue := ⟨.json, .root, "invalid JSON"⟩

/-- The report of a document as a text. -/
def ofText (files : Files) (registry : Option Registry) (text : String) : Report :=
  match Component.ofText text with
  | .ok c => ofDocument files registry c
  | .error _ => ofIssues [unreadable]

end Report

end UiDoc
