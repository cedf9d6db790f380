import ZoomConfig.Baselevels
import ZoomConfig.Document.Normalize
import ZoomConfig.Document.Source
import ZoomConfig.Input.Registry
import ZoomConfig.Mode
/-!
The configuration of a process, resolved for every initialized zoom level.

A configuration is built by stages, and the first error ends it: the document is loaded, normalized
and checked; the process file, the pyramids, the mode and the initialized extent follow; parameters
are resolved zoom by zoom; the output driver is loaded and every input is opened.

Correspondence (program ↔ module):
  `Configuration::new`    ↔ `build`
  `flatten_input`         ↔ `flattenInput`
  `validate_process_file` ↔ `checkProcessFile`
  `load_output`           ↔ `loadOutput`
  `InitOptions::default`  ↔ `InitOptions.default`
-/
namespace ZoomConfig

/-- Options that narrow a configuration. -/
structure InitOptions where
  /-- One zoom level or two; all that are declared if missing. -/
  zoom : Option (List Nat)
  /-- Left, bottom, right and top; the declared bounds if missing. -/
  bounds : Option (List Float)
  /-- The name of a mode. -/
  mode : String

/-- All zoom levels and bounds, and the mode that keeps what exists. -/
def InitOptions.default : InitOptions := ⟨none, none, Mode.keep.name⟩

/-- The parameters of one zoom level, and the identities of its inputs by their paths. -/
structure ZoomParams where
  params : Mapping
  /-- Nothing if no input is left; a path without an identity is bound to nothing. -/
  input : Option (Dict String (Option ContentId))

/-- A configuration whose drivers act in `m` and whose boxes have coordinates in `α`. -/
structure Configuration (m : Type → Type) (α : Type) where
  document : ProcessDocument
  processFile : String
  deprecations : List Deprecation
  mode : Mode
  pyramids : Pyramids
  baselevels : Option Baselevels
  initZooms : ZoomLevels
  bounds : Box α
  initBounds : Box α
  paramsAt : Dict Nat ZoomParams
  declarations : Dict ContentId Declaration
  outputParams : OutputParams
  output : OutputWriter m
  inputs : InputRegistry m α

namespace Configuration

/-- The identities of leaves, with every declaration that is met for the first time added to those
known. -/
def identifyLeaves : Dict ContentId Declaration → List (String × Option Declaration) →
    Except ConfigError (Dict String (Option ContentId) × Dict ContentId Declaration)
  | known, [] => .ok ([], known)
  | known, (path, none) :: rest =>
    (identifyLeaves known rest).map fun (leaves, known) => ((path, none) :: leaves, known)
  | known, (path, some d) :: rest =>
    match d.contentId with
    | .error e => .error e
    | .ok id =>
      (identifyLeaves (Dict.insertNew known id d) rest).map fun (leaves, known) =>
        ((path, some id) :: leaves, known)

/-- The leaves of a resolved `input` value by their paths. -/
def flattenInput (known : Dict ContentId Declaration) (v : Value) :
    Except ConfigError (Dict String (Option ContentId) × Dict ContentId Declaration) :=
  match InputTree.parse v with
  | .error e => .error e
  | .ok tree => identifyLeaves known (Forest.flatten tree)

/-- The parameters of one zoom level. -/
def resolveZoom (params : List (NodeKey × Node)) (known : Dict ContentId Declaration)
    (zoom : Nat) : Except ConfigError (ZoomParams × Dict ContentId Declaration) :=
  match Mapping.remove (Node.resolveParams params zoom) inputKey with
  | (none, rest) => .ok (⟨rest, none⟩, known)
  | (some input, rest) =>
    (flattenInput known input).map fun (leaves, known) => (⟨rest, some leaves⟩, known)

/-- The parameters of several zoom levels, and all declarations that they use. -/
def resolveZooms (params : List (NodeKey × Node)) : Dict ContentId Declaration → List Nat →
    Except ConfigError (Dict Nat ZoomParams × Dict ContentId Declaration)
  | known, [] => .ok ([], known)
  | known, zoom :: rest =>
    match resolveZoom params known zoom with
    | .error e => .error e
    | .ok (here, known) =>
      (resolveZooms params known rest).map fun (others, known) => ((zoom, here) :: others, known)

/-- The initialized zoom levels; they have to be declared. -/
def chooseZooms (declared : ZoomLevels) (wanted : Option (List Nat)) :
    Except ConfigError ZoomLevels := do
  let zooms ← match wanted with
    | some zooms => (ZoomLevels.ofList? zooms).mapError .zoomRange
    | none => pure declared
  if zooms.within declared then return zooms
  else throw (.zoomRange (.notDeclared zooms declared))

/-- The initialized bounds. -/
def chooseBounds (declared : Box Float) : Option (List Float) → Except ConfigError (Box Float)
  | some values => (Box.ofList? values).mapError .ofBox
  | none => .ok declared

/-- Everything that can be told from a document without its files and drivers. -/
structure Plan where
  pyramids : Pyramids
  baselevels : Option Baselevels
  mode : Mode
  initZooms : ZoomLevels
  bounds : Box Float
  initBounds : Box Float
  paramsAt : Dict Nat ZoomParams
  declarations : Dict ContentId Declaration

/-- Plans a configuration. -/
def Plan.of (doc : ProcessDocument) (options : InitOptions) : Except ConfigError Plan := do
  let pyramids ← Pyramids.build doc.pyramid doc.output
  let baselevels ← match doc.baselevels with
    | some raw =>
      (Baselevels.ofMapping raw doc.zoomLevels pyramids.process pyramids.output).map some
    | none => pure none
  let some mode := Mode.ofName? options.mode | throw (.mode options.mode)
  let initZooms ← chooseZooms doc.zoomLevels options.zoom
  let bounds := doc.bounds.getD pyramids.process.bounds
  let initBounds ← chooseBounds bounds options.bounds
  let (paramsAt, declarations) ← resolveZooms doc.params [] initZooms.toList
  return { pyramids, baselevels, mode, initZooms, bounds, initBounds, paramsAt, declarations }

/-- A document in its current form with its structure checked. -/
def checkDocument (loaded : LoadedDocument) :
    Except ConfigError (ProcessDocument × List Deprecation) := do
  let normalized ← (normalize loaded.mapping).mapError .schema
  let doc ← ProcessDocument.ofMapping normalized.mapping loaded.configDir loaded.file
  return (doc, normalized.deprecations)

variable {m : Type → Type} [Monad m] {α : Type}

/-- The path of the process file, which has to be there and to be readable. -/
def checkProcessFile (files : Files m) (configDir processFile : String) :
    m (Except ConfigError String) := do
  let path := Path.normalize (Path.join configDir processFile)
  if ← files.isFile path then
    match ← files.readText path with
    | .error cause => return .error (.processFile (.unreadable path cause))
    | .ok _ => return .ok path
  else return .error (.processFile (.missing path))

/-- Loads the driver of an output, which has to accept its parameters. -/
def loadOutput (drivers : Drivers m α) (params : OutputParams) :
    m (Except ConfigError (OutputWriter m)) := do
  let declaration := params.format ++ " output"
  match drivers.outputDriver? params.format with
  | none => return .error (.driver declaration (.noDriver params.format))
  | some driver =>
    match ← driver.load params with
    | .error e => return .error (.driver declaration e)
    | .ok writer =>
      match ← writer.check params with
      | .error e => return .error (.driver declaration e)
      | .ok () => return .ok writer

variable [Coordinate α]

/-- What the inputs of a plan are opened against. -/
def Plan.context (plan : Plan) (configDir : String) : LoadContext α :=
  { configDir
    pyramid := plan.pyramids.process
    delimiters :=
      { zooms := plan.initZooms
        bounds := .ofFloats plan.initBounds
        processBounds := .ofFloats plan.bounds }
    readonly := plan.mode.isReadonly }

/-- Builds a configuration. -/
def build (files : Files m) (drivers : Drivers m α) (source : DocumentSource)
    (options : InitOptions) : ExceptT ConfigError m (Configuration m α) := do
  let loaded ← ExceptT.mk (LoadedDocument.load files source)
  let (doc, deprecations) ← ExceptT.mk (pure (checkDocument loaded))
  let processFile ← ExceptT.mk (checkProcessFile files doc.configDir doc.processFile)
  let plan ← ExceptT.mk (pure (Plan.of doc options))
  let outputParams ← ExceptT.mk (pure
    (OutputParams.ofMapping doc.output doc.configDir plan.pyramids.output drivers.outputFormats))
  let output ← ExceptT.mk (loadOutput drivers outputParams)
  let inputs ← ExceptT.mk
    (InputRegistry.materialize (plan.context doc.configDir) drivers
      (plan.declarations.map (·.2)))
  return {
    document := doc
    processFile, deprecations
    mode := plan.mode
    pyramids := plan.pyramids
    baselevels := plan.baselevels
    initZooms := plan.initZooms
    bounds := .ofFloats plan.bounds
    initBounds := .ofFloats plan.initBounds
    paramsAt := plan.paramsAt
    declarations := plan.declarations
    outputParams, output, inputs }

end Configuration

end ZoomConfig
