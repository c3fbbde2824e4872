import UiDoc.Flow.Branching
import UiDoc.Flow.Repetition
import UiDoc.Render.Handlers
import UiDoc.Render.Pass
import UiDoc.Render.Props

/-!
# Rendering components

A component is rendered in a fixed order: the guard, its conditional, its properties and handlers,
its type, and last its children.  Whatever is inside of a component is one level deeper, so the
limit of the guard also bounds the recursion here.
-/

namespace UiDoc

/-- Where in the tree a component is rendered. -/
structure Site where
  depth : Nat := 0
  /-- The definitions that are being rendered, the outermost first. -/
  active : List String := []
  /-- What stands in place of a slot. -/
  slot : Option (List Node) := none

/-- The same place, one level deeper. -/
def Site.deeper (site : Site) : Site :=
  { site with depth := site.depth + 1 }

/-- A way to render a component in a scope, under a key, at a place. -/
abbrev Renderer := Component → Scope → (key : String) → Site → Rendering (List Node)

namespace Component

/-- The key of a child: its own, unless the child is repeated, else one below the key of the
parent. -/
def childKey (parent : String) (repeated : Bool) (index : Nat) (c : Component) : String :=
  if c.id = "" then parent ++ "." ++ Decimal.natText index
  else if repeated then parent ++ "." ++ c.id
  else c.id

end Component

namespace Render

/-- Renders components one after the other. -/
def components (below : Renderer) (scope : Scope) (parent : String) (repeated : Bool)
    (site : Site) : (index : Nat) → List Component → Rendering (List Node)
  | _, [] => pure []
  | index, c :: rest => do
      let front ← below c scope (c.childKey parent repeated index) site
      let back ← components below scope parent repeated site (index + 1) rest
      return front ++ back

/-- Renders a text. -/
def text (scope : Scope) (template : String) : Rendering (List Node) := do
  let filled ← Rendering.logged (Template.interpolate scope template)
  return [.text filled]

/-- Renders a branch of a conditional.  A single component takes the place of the conditional. -/
def branch (below : Renderer) (scope : Scope) (key : String) (site : Site) :
    Content → Rendering (List Node)
  | .text template => text scope template
  | .node c => below c scope (if c.id = "" then key else c.id) site
  | .nodes list => components below scope key false site 0 list

/-- Renders the children of a component once. -/
def childList (below : Renderer) (c : Component) (scope : Scope) (parent : String) (repeated : Bool)
    (site : Site) : Rendering (List Node) :=
  match c.children with
  | none => pure []
  | some (.text template) => text scope template
  | some content => components below scope parent repeated site 0 content.components

/-- The key of what stands in a slot. -/
def slotKey (key : String) (slot : Slot) : String :=
  key ++ "[" ++ slot.key ++ "]"

/-- Renders the children of a component for each slot of its loop.  A slot that is left out is an
empty fragment. -/
def slots (below : Renderer) (c : Component) (scope : Scope) (key : String) (site : Site) :
    List Slot → Rendering (List Node)
  | [] => pure []
  | slot :: rest => do
      let inner ←
        if slot.included then
          childList below c (scope.withContext slot.context) (slotKey key slot) true site
        else pure []
      let outer ← slots below c scope key site rest
      return .fragment slot.key inner :: outer

/-- Renders the children of a component. -/
def children (setting : Setting) (below : Renderer) (c : Component) (scope : Scope) (key : String)
    (site : Site) : Rendering (List Node) :=
  match c.loop with
  | none => childList below c scope key false site
  | some l => do
      let items ← Rendering.logged (l.expand setting.devMode scope)
      slots below c scope key site items

/-- What is recorded of a definition inside of itself. -/
def circularMessage (active : List String) (name : String) : String :=
  "'" ++ name ++ "' is already being rendered (" ++ " -> ".intercalate active ++ " -> " ++ name ++
    "); rendering nothing"

/-- Renders a definition in place of its instance.  The children of the instance are rendered first,
in the scope of the instance; the definition sees the properties as the variable `props`. -/
def composite (setting : Setting) (below : Renderer) (c : Component) (name : String)
    (definition : Component) (props : Record Json) (handlers : List BoundHandler) (scope : Scope)
    (key : String) (site : Site) : Rendering (List Node) := do
  if name ∈ site.active then
    Rendering.logged
      (Logged.warnOnce .circularDefinition name (circularMessage site.active name))
    return []
  else
    let slot ← children setting below c scope key site.deeper
    let inside : Site :=
      { depth := site.depth + 1, active := site.active ++ [name], slot := some slot }
    let nodes ← below definition (scope.bind "props" (.obj props)) key inside
    return Node.attachToFirst handlers nodes

/-- What is recorded of a type that is deprecated. -/
def deprecationMessage (kind : String) (notice : Option String) : String :=
  "component type '" ++ kind ++ "' is deprecated" ++
    match notice with
    | some text => ": " ++ text
    | none => ""

/-- Warns about a type that is deprecated. -/
def warnDeprecated (kind : String) : Rendering Unit := do
  match ((← get).registry.entry? kind).filter RegistryEntry.isDeprecated with
  | some entry =>
      Rendering.logged
        (Logged.warnOnce .deprecatedComponent kind (deprecationMessage kind entry.notice))
  | none => return ()

/-- Renders what the type of a component stands for. -/
def typed (setting : Setting) (below : Renderer) (c : Component) (props : Record Json)
    (handlers : List BoundHandler) (scope : Scope) (key : String) (site : Site) :
    Rendering (List Node) := do
  match ← Rendering.resolve setting.files c.kind with
  | none =>
      Rendering.logged (Logged.warnOnce .unknownComponentType c.kind
        ("no component registered for type '" ++ c.kind ++ "'"))
      return []
  | some renderable =>
      warnDeprecated c.kind
      match renderable with
      | .composite name definition =>
          composite setting below c name definition props handlers scope key site
      | _ =>
          let inner ← children setting below c scope key site.deeper
          return [.element {
            key, id := c.id, kind := c.kind, renderable, props := BoundHandler.clear handlers props,
            handlers, children := inner }]

/-- Renders a component itself.  Without a type it is a group of its children. -/
def itself (setting : Setting) (below : Renderer) : Renderer := fun c scope key site => do
  let props ← Rendering.logged (c.resolveProps setting.devMode scope)
  if c.kind = "" then
    let inner ← children setting below c scope key site.deeper
    return [.fragment key inner]
  else typed setting below c props (c.boundHandlers scope) scope key site

/-- Renders a component that the guard lets pass. -/
def admitted (setting : Setting) (below : Renderer) : Renderer := fun c scope key site => do
  match ← Rendering.logged (c.outcome scope) with
  | .empty _ => return []
  | .branch content => branch below scope key site.deeper content
  | .unconditional =>
      if c.isSlot then return site.slot.getD []
      else itself setting below c scope key site

/-- What is recorded of a component that is nested too deeply. -/
def depthMessage (depth limit : Nat) : String :=
  "render depth " ++ Decimal.natText depth ++ " exceeds the limit of " ++ Decimal.natText limit

/-- Cuts off a component that is nested too deeply. -/
def cutOff (c : Component) (depth : Nat) (shown : Bool) : Rendering (List Node) := do
  let limit := (← get).guard.maxDepth
  Rendering.logged (Logged.warnOnce .depthExceeded c.label (depthMessage depth limit))
  return if shown then [.fallback c.label depth] else []

/-- Renders a component, where everything inside of it is rendered by `below`. -/
def component (setting : Setting) (below : Renderer) : Renderer := fun c scope key site => do
  match ← Rendering.enter site.depth with
  | .proceed => admitted setting below c scope key site
  | .halted => Rendering.halt
  | .depthExceeded shown => cutOff c site.depth shown

/-- Renders a component with so many levels below it.  Below the last level stands nothing. -/
def upTo (setting : Setting) : (levels : Nat) → Renderer
  | 0, c, scope, key, site => component setting (fun _ _ _ _ => pure []) c scope key site
  | levels + 1, c, scope, key, site => component setting (upTo setting levels) c scope key site

end Render

end UiDoc
