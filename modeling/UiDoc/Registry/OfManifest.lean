import UiDoc.Document.Decoder
import UiDoc.Registry

/-!
# Registries from manifests
-/

namespace UiDoc

/-- What is wrong with a manifest. -/
inductive ManifestError where
  | emptyKey
  | duplicateKey (key : String)
  | missingWrapper (key : String)
  deriving DecidableEq, Repr

/-- The text of an error. -/
def ManifestError.message (e : ManifestError) : String :=
  "invalid registry manifest: " ++
    match e with
    | emptyKey => "entry with an empty key"
    | duplicateKey key => "duplicate key '" ++ key ++ "'"
    | missingWrapper key => "'" ++ key ++ "' requires a wrapper but names no wrapperComponent"

/-- Why a manifest cannot be loaded. -/
inductive LoadError where
  | unreadable
  | undecodable (error : ReadError)
  | invalid (error : ManifestError)
  deriving DecidableEq, Repr

namespace Registry

/-- What is wrong with an entry behind entries with some keys. -/
def entryError? (seen : List String) (entry : RegistryEntry) : Option ManifestError :=
  if entry.key = "" then some .emptyKey
  else if entry.key ∈ seen then some (.duplicateKey entry.key)
  else if entry.wrapperRequired && entry.wrapper.isNone then some (.missingWrapper entry.key)
  else none

/-- Registers entries, up to one that is wrong. -/
def registerEntries :
    (seen : List String) → List RegistryEntry → Registry → Except ManifestError Registry
  | _, [], r => .ok r
  | seen, entry :: entries, r =>
      match entryError? seen entry with
      | some error => .error error
      | none => registerEntries (entry.key :: seen) entries (r.registerEntry entry)

/-- The registry of a manifest, on top of the elements that need no declaration. -/
def ofManifest (manifest : Manifest) : Except ManifestError Registry :=
  (registerEntries [] manifest.components builtin).map (registerIcons manifest.icons)

/-- The same registry, but the paths of definitions lead from the directory of a file. -/
def besides (file : String) (r : Registry) : Registry :=
  { r with definitions := r.definitions.map fun (name, source) =>
      (name, match source with
        | .file path => .file (FilePath.join (FilePath.parent file) path)
        | other => other) }

/-- The registry of the manifest in a file, to which its paths are relative. -/
def ofManifestFile (files : Files) (path : String) : Except LoadError Registry :=
  match files.textAt path with
  | none => .error .unreadable
  | some text =>
      match Json.decodeText Manifest.decoder text with
      | .error error => .error (.undecodable error)
      | .ok manifest =>
          match ofManifest manifest with
          | .error error => .error (.invalid error)
          | .ok r => .ok (r.besides path)

end Registry

end UiDoc
