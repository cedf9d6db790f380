import ZoomConfig.ContentId
import ZoomConfig.Files
import ZoomConfig.Geometry.Pyramid
import ZoomConfig.Tree
import ZoomConfig.Zoom.Node
/-!
Errors of configurations.

Every error is a cause with what it needs to be told; `message` puts it into words.
-/
namespace ZoomConfig

/-- What a parameter has to be. -/
inductive Shape where
  | text
  | mapping
  | mappingOrNull
  | integerOrMapping
  deriving DecidableEq, Repr

/-- The shape in words. -/
def Shape.describe : Shape → String
  | .text => "a string"
  | .mapping => "a mapping"
  | .mappingOrNull => "a mapping or null"
  | .integerOrMapping => "an integer or a mapping"

/-- A part of a document is missing or is not what it has to be. -/
inductive SchemaError where
  | configDirMissing
  | configDirShape (found : Value)
  | notDocument (path : String)
  | unreadable (path : String) (cause : FileError)
  | unresolvable (path : String) (cause : FileError)
  | noParent (path : String)
  | yaml
  | documentShape (found : Value)
  | outputMissing
  | outputTypeMissing
  | zoomLevelsMissing
  | inputTwice
  | inputMissing
  | parameterMissing (key : String)
  | parameterShape (key : String) (expected : Shape) (found : Value)
  | parameterNotText (key : String)
  | parameterNotMapping (key : String)
  | baselevelsShape (found : Value)
  | keyShape (found : Value)
  | resamplingUnknown (name : String)
  | resamplingShape (key : String) (found : Value)
  | inputIsDeclaration
  | inputShape (found : Value)
  | declarationShape (name : String) (found : Value)
  | declarationKey (cause : JsonKeyError)
  | paths (cause : TreeError)
  | notOpened (path : String) (id : ContentId)
  | outputFormatMissing
  | outputFormatUnknown (format : String) (available : List String)
  | outputPathShape (found : Value)
  /-- The area of all zoom levels was filled in by its own computation. This is not reported: the
  program stops where it happens. -/
  | reentered

/-- Texts in quotes, in square brackets. -/
def quotedListText (texts : List String) : String :=
  "[" ++ ", ".intercalate (texts.map Text.quoted) ++ "]"

/-- What is wrong, in words. -/
def SchemaError.message : SchemaError → String
  | .configDirMissing => "config_dir parameter missing"
  | .configDirShape found => "config_dir must be a string, got " ++ found.describe
  | .notDocument path => "configuration has to be a mapping or a .mapchete file, got " ++ path
  | .unreadable path cause => "cannot read " ++ path ++ ": " ++ cause.message
  | .unresolvable path cause => "cannot resolve " ++ path ++ ": " ++ cause.message
  | .noParent path => path ++ " has no parent directory"
  | .yaml => "YAML error"
  | .documentShape found => "process document must be a mapping, got " ++ found.describe
  | .outputMissing => "output parameters not provided"
  | .outputTypeMissing => "output type missing, cannot derive pyramid"
  | .zoomLevelsMissing => "process zoom levels not provided in config"
  | .inputTwice => "'input' and 'input_files' are not allowed at the same time"
  | .inputMissing => "no 'input' found"
  | .parameterMissing key => key ++ " parameter missing"
  | .parameterShape key expected found =>
    key ++ " must be " ++ expected.describe ++ ", got " ++ found.describe
  | .parameterNotText key => key ++ " must be a string"
  | .parameterNotMapping key => key ++ " must be a mapping"
  | .baselevelsShape found => "baselevels must be a mapping, got " ++ found.describe
  | .keyShape found => "mapping keys must be strings, got " ++ found.describe
  | .resamplingUnknown name => "unknown resampling method '" ++ name ++ "'"
  | .resamplingShape key found =>
    "baselevels " ++ key ++ " must be a resampling method, got " ++ found.describe
  | .inputIsDeclaration => "input must map names to declarations, not be a declaration itself"
  | .inputShape found => "input must be a mapping, got " ++ found.describe
  | .declarationShape name found =>
    "invalid input declaration for '" ++ name ++ "': " ++ found.describe
  | .declarationKey cause => "input declaration cannot be serialized: " ++ cause.message
  | .paths cause => cause.message
  | .notOpened path id => "no input opened for '" ++ path ++ "' (" ++ id.short ++ ")"
  | .outputFormatMissing => "output format not specified"
  | .outputFormatUnknown format available =>
    "output format '" ++ format ++ "' not available, use one of " ++ quotedListText available
  | .outputPathShape found => "output path must be a string, got " ++ found.describe
  | .reentered => "reentrant init"

/-- The process file cannot be used. -/
inductive ProcessFileError where
  | missing (path : String)
  | unreadable (path : String) (cause : FileError)
  deriving DecidableEq, Repr

/-- What is wrong, in words. -/
def ProcessFileError.message : ProcessFileError → String
  | .missing path => path ++ " is not available"
  | .unreadable path cause => "cannot read " ++ path ++ ": " ++ cause.message

/-- Pyramids cannot be made or do not go together. -/
inductive PyramidError where
  | gridMissing
  | grid (cause : GridError)
  | notNatural (key : String) (found : Value)
  | outputTooCoarse (output process : Nat)

/-- What is wrong, in words. -/
def PyramidError.message : PyramidError → String
  | .gridMissing => "pyramid grid not given"
  | .grid cause => cause.message
  | .notNatural key found => key ++ " must be a non-negative integer, got " ++ found.describe
  | .outputTooCoarse output process =>
    "output metatiles (" ++ toString output ++
      ") must not be bigger than process metatiles (" ++ toString process ++ ")"

/-- Bounds are not four finite numbers. -/
inductive BoundsError where
  | shape (found : Value)
  | notNumber (found : Value)
  | box (cause : BoxError)

/-- What is wrong, in words. -/
def BoundsError.message : BoundsError → String
  | .shape found => "bounds must be a list, got " ++ found.describe
  | .notNumber found => "bounds must be numbers, got " ++ found.describe
  | .box cause => cause.message

/-- What drivers report. -/
inductive DriverError where
  | noDriver (what : String)
  | unopened (path reason : String)
  | invalidData (path reason : String)
  | incompatible (reason : String)
  | other (reason : String)
  deriving DecidableEq, Repr

/-- What is wrong, in words. -/
def DriverError.message : DriverError → String
  | .noDriver what => "no driver available for " ++ what
  | .unopened path reason => "failed to open " ++ path ++ ": " ++ reason
  | .invalidData path reason => "invalid data in " ++ path ++ ": " ++ reason
  | .incompatible reason => "incompatible configuration: " ++ reason
  | .other reason => reason

/-- Why there is no configuration, or no answer from one. -/
inductive ConfigError where
  | schema (cause : SchemaError)
  | processFile (cause : ProcessFileError)
  | pyramid (cause : PyramidError)
  | zoomRange (cause : ZoomRangeError)
  | bounds (cause : BoundsError)
  | zoomExpression (key : String)
  | driver (declaration : String) (cause : DriverError)
  | mode (name : String)
  | updateUnsupported

namespace ConfigError

/-- What is wrong, in words. -/
def message : ConfigError → String
  | .schema cause => "schema error: " ++ cause.message
  | .processFile cause => "process file error: " ++ cause.message
  | .pyramid cause => "pyramid error: " ++ cause.message
  | .zoomRange cause => "zoom range error: " ++ cause.message
  | .bounds cause => "bounds error: " ++ cause.message
  | .zoomExpression key =>
    "zoom expression error: zoom level could not be determined from '" ++ key ++ "'"
  | .driver declaration cause =>
    "driver error for " ++ declaration ++ ": " ++ cause.message
  | .mode name =>
    "unknown mode '" ++ name ++ "': must be one of memory, readonly, continue, overwrite"
  | .updateUnsupported => "updating an existing configuration is not supported"

/-- A key that is refused. -/
def ofKey : KeyError → ConfigError
  | .notText found => .schema (.keyShape found)
  | .malformed key => .zoomExpression key

/-- A grid or pyramid that is refused. -/
def ofGrid (cause : GridError) : ConfigError := .pyramid (.grid cause)

/-- Four numbers that are refused. -/
def ofBox (cause : BoxError) : ConfigError := .bounds (.box cause)

end ConfigError

end ZoomConfig
