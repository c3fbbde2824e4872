import UiDoc.Document.Component
import UiDoc.Document.Manifest
import UiDoc.Files

/-!
# The registry

The registry knows what each type of component stands for: an element of the host, a definition, or
an icon.  What has been found out once is remembered.
-/

namespace UiDoc

/-- What a type of component stands for. -/
inductive Renderable where
  | element (tag : String) (tier : SourceTier)
  | composite (name : String) (definition : Component)
  | icon (name : String)

/-- The tier that something to render belongs to. -/
def Renderable.tier : Renderable → SourceTier
  | element _ tier => tier
  | composite _ _ => .json
  | icon _ => .icon

/-- What a module says about a type. -/
inductive LoadState where
  | ready (renderable : Renderable)
  | pending
  | missing

/-- A call of a module: the type and the name of the export. -/
structure LoadCall where
  kind : String
  exported : String
  deriving DecidableEq, Repr

/-- A module answers a call, depending on the calls before it. -/
abbrev Loader := (earlier : List LoadCall) → LoadCall → LoadState

/-- A registered module. -/
structure Module where
  loader : Loader
  /-- The calls so far, in order. -/
  calls : List LoadCall := []

/-- The source of a definition. -/
inductive DefinitionSource where
  | text (text : String)
  | file (path : String)
  | parsed (definition : Component)
  /-- A source that could not be read or parsed. -/
  | broken

/-- The registered types. -/
structure Registry where
  entries : Record RegistryEntry := []
  /-- Types with a fixed meaning. -/
  eager : Record Renderable := []
  /-- Modules by their paths. -/
  modules : Record Module := []
  /-- Definitions by their names. -/
  definitions : Record DefinitionSource := []
  icons : List String := []
  /-- What types have been found to stand for. -/
  memo : Record Renderable := []
  /-- The calls of modules with their paths, in order. -/
  loads : List (String × LoadCall) := []

namespace Record

variable {α : Type}

/-- The fields of all other names. -/
def without (r : Record α) (name : String) : Record α :=
  r.filter fun field => field.1 ≠ name

end Record

namespace Registry

/-- The elements that need no declaration. -/
def primitives : List String := [
  "div", "span", "p", "a", "button", "input", "textarea", "select", "option", "label", "form",
  "img", "ul", "ol", "li", "table", "thead", "tbody", "tr", "th", "td", "section", "article",
  "header", "footer", "nav", "main", "aside", "h1", "h2", "h3", "h4", "h5", "h6", "strong", "em",
  "small", "code", "pre", "br", "hr"]

/-- A registry of nothing. -/
def empty : Registry := {}

/-- A registry of the elements that need no declaration. -/
def builtin : Registry where
  eager := primitives.map fun tag => (tag, .element tag .primitive)

/-- Registers what a type stands for. -/
def register (name : String) (renderable : Renderable) (r : Registry) : Registry :=
  { r with eager := r.eager.insert name renderable }

/-- Registers a module.  It may take precedence over what has been found. -/
def registerModule (path : String) (loader : Loader) (r : Registry) : Registry :=
  { r with modules := r.modules.insert path { loader }, memo := [] }

/-- Registers the source of a definition. -/
def registerDefinition (name : String) (source : DefinitionSource) (r : Registry) : Registry :=
  { r with definitions := r.definitions.insert name source, memo := r.memo.without name }

/-- Registers icons. -/
def registerIcons (names : List String) (r : Registry) : Registry :=
  { r with icons := (r.icons ++ names).eraseDups }

/-- Registers what an entry says about the table of its tier. -/
def registerTier (entry : RegistryEntry) (r : Registry) : Registry :=
  match entry.sourceTier with
  | .primitive | .ui =>
      match entry.wrapper with
      | none => r.register entry.key (.element entry.exported entry.sourceTier)
      | some _ => r
  | .json =>
      match entry.loadPath with
      | some path => r.registerDefinition entry.key (.file path)
      | none => r
  | .icon => r.registerIcons [entry.key]
  | .module => r

/-- Registers an entry. -/
def registerEntry (entry : RegistryEntry) (r : Registry) : Registry :=
  let r := r.registerTier entry
  { r with memo := r.memo.without entry.key, entries := r.entries.insert entry.key entry }

/-- Registers all definitions below a directory, and says how many there are. -/
def registerDirectory (files : Files) (directory : String) (r : Registry) : Nat × Registry :=
  let found := files.discover directory
  (found.length,
    found.foldl (fun r f => r.registerDefinition f.name (.file f.path)) r)

/-- The entry of a type. -/
def entry? (r : Registry) (name : String) : Option RegistryEntry :=
  r.entries.find? name

/-- Whether a type is deprecated. -/
def isDeprecated (r : Registry) (name : String) : Bool :=
  (r.entry? name).any RegistryEntry.isDeprecated

/-- A text that tells the size of each table. -/
def summary (r : Registry) : String :=
  let sizes := [("entries", r.entries.length), ("eager", r.eager.length),
    ("modules", r.modules.length), ("json", r.definitions.length), ("icons", r.icons.length),
    ("memoized", r.memo.length)]
  "ComponentRegistry \x7b " ++
    ", ".intercalate (sizes.map fun (name, size) => name ++ ": " ++ Decimal.natText size) ++ " \x7d"

end Registry

end UiDoc
