import UiDoc.Digest.Sha256
import UiDoc.Document.Decoder

/-!
# Caching documents

The cache keeps the documents that were used last, by the digests of their texts.  A text that is no
document leaves no trace.
-/

namespace UiDoc

/-- The parsed documents that were used last. -/
structure DocumentCache where
  capacity : Nat
  /-- There is room for one document at least. -/
  capacity_pos : 0 < capacity
  /-- The documents by digest; the one that was used last is last. -/
  documents : List (String × Component)

namespace DocumentCache

/-- An empty cache with room for so many documents, but for one at least. -/
def ofCapacity (capacity : Nat) : DocumentCache where
  capacity := max capacity 1
  capacity_pos := by omega
  documents := []

/-- An empty cache of the usual size. -/
def empty : DocumentCache :=
  ofCapacity 256

/-- The number of documents. -/
def size (cache : DocumentCache) : Nat :=
  cache.documents.length

/-- Whether there are no documents. -/
def isEmpty (cache : DocumentCache) : Bool :=
  cache.documents.isEmpty

/-- The documents without the one of a digest. -/
def others (cache : DocumentCache) (digest : String) : List (String × Component) :=
  cache.documents.filter fun entry => entry.1 ≠ digest

/-- The cache in which a document has been used last. -/
def use (cache : DocumentCache) (digest : String) (document : Component) : DocumentCache :=
  { cache with documents := cache.others digest ++ [(digest, document)] }

/-- The document of a digest. -/
def find? (cache : DocumentCache) (digest : String) : Option Component :=
  cache.documents.lookup digest

/-- Adds a document; those that were used longest ago make room. -/
def add (cache : DocumentCache) (digest : String) (document : Component) : DocumentCache :=
  let kept := cache.others digest
  { cache with
    documents := kept.drop (kept.length + 1 - cache.capacity) ++ [(digest, document)] }

/-- The document of a text, if it is there; then it has been used last. -/
def get (source : String) (cache : DocumentCache) : Option Component × DocumentCache :=
  let digest := Sha256.hex source
  match cache.find? digest with
  | some document => (some document, cache.use digest document)
  | none => (none, cache)

/-- The document of a text, which is parsed if it is not there. -/
def parse (source : String) (cache : DocumentCache) :
    Except ReadError Component × DocumentCache :=
  match cache.get source with
  | (some document, cache) => (.ok document, cache)
  | (none, cache) =>
      match Component.ofText source with
      | .ok document => (.ok document, cache.add (Sha256.hex source) document)
      | .error error => (.error error, cache)

/-- The cache without any documents. -/
def clear (cache : DocumentCache) : DocumentCache :=
  { cache with documents := [] }

end DocumentCache

end UiDoc
