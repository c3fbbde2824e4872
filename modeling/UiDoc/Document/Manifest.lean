import UiDoc.Json

/-!
# Manifests

A manifest lists the component types and the icons that documents may use.
-/

namespace UiDoc

/-- Where a component type comes from. -/
inductive SourceTier where
  | primitive
  | ui
  | module
  | json
  | icon
  deriving DecidableEq, Repr

/-- The name of a tier. -/
def SourceTier.name : SourceTier → String
  | primitive => "primitive"
  | ui => "ui"
  | module => "module"
  | json => "json"
  | icon => "icon"

/-- Whether a type should no longer be used. -/
inductive Deprecation where
  | flag (set : Bool)
  | notice (text : String)
  deriving DecidableEq, Repr

namespace Deprecation

/-- Whether it is deprecated. -/
def isSet : Deprecation → Bool
  | flag set => set
  | notice _ => true

/-- The text about it. -/
def text? : Deprecation → Option String
  | flag _ => none
  | notice text => some text

end Deprecation

/-- The declaration of a component type. -/
structure RegistryEntry where
  key : String := ""
  exportName : String := ""
  sourceTier : SourceTier := .ui
  loadPath : Option String := none
  wrapperRequired : Bool := false
  wrapperComponent : Option String := none
  deprecated : Option Deprecation := none
  deriving DecidableEq, Repr

namespace RegistryEntry

/-- The name under which a module exports the type. -/
def exported (entry : RegistryEntry) : String :=
  if entry.exportName = "" then entry.key else entry.exportName

/-- The type that stands in for this one. -/
def wrapper (entry : RegistryEntry) : Option String :=
  if entry.wrapperRequired then entry.wrapperComponent.filter (· ≠ "") else none

/-- Whether the type is deprecated. -/
def isDeprecated (entry : RegistryEntry) : Bool :=
  entry.deprecated.any Deprecation.isSet

/-- The text about the deprecation. -/
def notice (entry : RegistryEntry) : Option String :=
  entry.deprecated.bind Deprecation.text?

end RegistryEntry

/-- A manifest. -/
structure Manifest where
  components : List RegistryEntry := []
  icons : List String := []
  deriving DecidableEq, Repr

end UiDoc
