import ZoomConfig.Error
import ZoomConfig.Path
import ZoomConfig.Yaml.Document
/-!
Where a document comes from.

A document is a file, and then the directory of the file is the base directory, or a mapping with
the base directory in its `config_dir` entry.

Correspondence (program ↔ module):
  `DocumentSource::in_dir` ↔ `DocumentSource.inDir`
  `load_document`          ↔ `load`
  `load_file`              ↔ `ofFile`
  `parse_document`         ↔ `parseText`
-/
namespace ZoomConfig

/-- The extension of document files. -/
def documentExtension : String := "mapchete"

/-- The key of the base directory. -/
def configDirKey : String := "config_dir"

/-- A file or a mapping. -/
inductive DocumentSource where
  | file (path : String)
  | mapping (entries : List (Value × Value))

/-- A mapping with a given base directory. -/
def DocumentSource.inDir (m : Mapping) (dir : String) : DocumentSource :=
  .mapping (Mapping.put m configDirKey (.string dir))

/-- A document without its `config_dir` entry. -/
structure LoadedDocument where
  mapping : Mapping
  configDir : String
  /-- The file it was read from, if any. -/
  file : Option String

namespace LoadedDocument

/-- The document of a text. -/
def parseText (text : String) : Except ConfigError Mapping :=
  match Yaml.parse? text with
  | none => .error (.schema .yaml)
  | some (.mapping entries) => .ok entries
  | some v => .error (.schema (.documentShape v))

/-- The document of a mapping that names its base directory. -/
def ofMapping (m : Mapping) : Except ConfigError LoadedDocument :=
  match Mapping.remove m configDirKey with
  | (some (.string dir), rest) => .ok ⟨rest, dir, none⟩
  | (some v, _) => .error (.schema (.configDirShape v))
  | (none, _) => .error (.schema .configDirMissing)

/-- The document of a text, read from the file with a given real path. -/
def ofText (realPath text : String) : Except ConfigError LoadedDocument :=
  match Path.parent? realPath with
  | none => .error (.schema (.noParent realPath))
  | some dir =>
    (parseText text).map fun m => ⟨(Mapping.remove m configDirKey).2, dir, some realPath⟩

variable {m : Type → Type} [Monad m]

/-- Reads a document file. -/
def ofFile (files : Files m) (path : String) : m (Except ConfigError LoadedDocument) := do
  if Path.extension? path ≠ some documentExtension then
    return .error (.schema (.notDocument path))
  match ← files.readText path with
  | .error cause => return .error (.schema (.unreadable path cause))
  | .ok text =>
    match ← files.realPath path with
    | .error cause => return .error (.schema (.unresolvable path cause))
    | .ok real => return ofText real text

/-- Loads a document. -/
def load (files : Files m) : DocumentSource → m (Except ConfigError LoadedDocument)
  | .file path => ofFile files path
  | .mapping entries => return ofMapping entries

end LoadedDocument

end ZoomConfig
