import ZoomConfig.Digest
import ZoomConfig.Json.Writer
/-!
Identities of input declarations.

A declaration is known by the digest of its content. The content of a path is its text, that of a
mapping its JSON text with the members of every object in ascending order, so the order of keys in
the document does not matter. A word in front keeps paths and mappings apart.

Correspondence (program ↔ module):
  `hash_path`         ↔ `ofPath`
  `hash_mapping`      ↔ `ofMapping`
  `ContentId::to_hex` ↔ `text`
  `ContentId::short`  ↔ `short`
-/
namespace ZoomConfig

/-- The digest of a declaration's content. -/
structure ContentId where
  bytes : List UInt8
  deriving DecidableEq, Repr

instance : LT ContentId := ⟨fun a b => a.bytes < b.bytes⟩

instance : DecidableLT ContentId := fun a b => inferInstanceAs (Decidable (a.bytes < b.bytes))

namespace ContentId

/-- All digits. -/
def text (id : ContentId) : String := Digest.hex id.bytes

/-- The first eight digits. -/
def short (id : ContentId) : String := Digest.hex (id.bytes.take 4)

/-- The bytes of a text. -/
def textBytes (text : String) : List UInt8 := text.toUTF8.toList

/-- What is digested for a path. -/
def pathContent (path : String) : List UInt8 := textBytes "path" ++ 0 :: textBytes path

/-- The JSON text of a mapping with the members of every object in ascending order. -/
def canonicalText (entries : Mapping) : Except JsonKeyError String :=
  (Json.ofValue (.mapping entries)).map fun j => j.canonical.compact

/-- What is digested for a mapping. -/
def mappingContent (entries : Mapping) : Except JsonKeyError (List UInt8) :=
  (canonicalText entries).map fun text => textBytes "mapping" ++ 0 :: textBytes text

/-- The identity of a path. -/
def ofPath (path : String) : ContentId := ⟨Digest.sha256 (pathContent path)⟩

/-- The identity of a mapping. -/
def ofMapping (entries : Mapping) : Except JsonKeyError ContentId :=
  (mappingContent entries).map fun content => ⟨Digest.sha256 content⟩

end ContentId

end ZoomConfig
