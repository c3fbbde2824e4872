import UiDoc.Config.Decoder
import UiDoc.Interpreter
import UiDoc.Json.Printer
import UiDoc.Registry.OfManifest
import UiDoc.Render.Encoder
import UiDoc.Validation.Document

/-!
# Texts in, texts out

A host that shares no types with the library hands over JSON texts and gets JSON texts back.
-/

namespace UiDoc.Service

/-- Reads a text, if there is one. -/
def readOptional {α : Type} (read : String → Except ReadError α) :
    Option String → Except LoadError (Option α)
  | none => .ok none
  | some text => ((read text).map some).mapError .undecodable

/-- The registry of a manifest, if there is one. -/
def registryOf (manifest : Option String) : Except LoadError (Option Registry) := do
  match ← readOptional (Json.decodeText Manifest.decoder) manifest with
  | none => return none
  | some manifest => ((Registry.ofManifest manifest).map some).mapError .invalid

/-- Renders a document.  Without a manifest, there are only the elements that need no
declaration. -/
def render (document data : String) (state manifest config : Option String) :
    Except LoadError String := do
  let root ← (Component.ofText document).mapError .undecodable
  let data ← (Json.parse data).mapError .undecodable
  let state ← readOptional Json.parse state
  let config ← readOptional Config.ofText config
  let registry ← registryOf manifest
  let interpreter := Interpreter.ofConfig (config.getD {}) (registry.getD .builtin) 0
  let (output, _) := interpreter.render {} 0 { root, data, state }
  return output.toJson.print

/-- Validates a document.  Without a manifest, types are not looked at. -/
def validate (document : String) (manifest : Option String) : Except LoadError String := do
  let registry ← registryOf manifest
  return (Report.ofText {} registry document).toJson.print

/-- Brings events to one form. -/
def normalizeEvents (events : String) : Except LoadError String := do
  let field ← (Json.decodeText EventsField.decoder events).mapError .undecodable
  return (Json.arr (field.normalize.map EventHandler.toJson)).print

end UiDoc.Service
