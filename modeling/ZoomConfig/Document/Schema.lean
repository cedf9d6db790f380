import ZoomConfig.Error
/-!
The structure of a document.

`ProcessDocument.ofMapping` checks a document in its current form: the mandatory parameters with
their shapes first, then every section in turn, and the keys of all other parameters last.

Correspondence (program ↔ module):
  `Shape::accepts`               ↔ `Shape.accepts`
  `PyramidSection::from_mapping` ↔ `PyramidSection.ofMapping`
  `optional_u32`                 ↔ `optionalNat`
  `bounds_from_value`            ↔ `boundsOfValue`
  `RawDocument::from_mapping`    ↔ `ProcessDocument.ofMapping`
  `value_at`                     ↔ `valueAt`
  `string_at`                    ↔ `textAt`
  `mapping_at`                   ↔ `mappingAt`
-/
namespace ZoomConfig

/-- Does a value have a shape? Tags do not matter. -/
def Shape.accepts : Shape → Value → Bool
  | .text, v => v.asString?.isSome
  | .mapping, v => v.asMapping?.isSome
  | .mappingOrNull, v => v.asMapping?.isSome || v.isNull
  | .integerOrMapping, v => v.isInteger || v.asMapping?.isSome

/-- The parameters that a document must have. -/
def mandatoryParameters : List (String × Shape) :=
  [("process_file", .text), ("pyramid", .mapping), ("input", .mappingOrNull),
    ("output", .mapping), ("zoom_levels", .integerOrMapping)]

/-- The names that are never parameters of the process. -/
def reservedParameters : List String :=
  ["baselevels", "pyramid", "zoom_levels", "bounds", "process_file", "config_dir",
    "process_minzoom", "process_maxzoom", "process_zoom", "process_bounds", "metatiling",
    "pixelbuffer"]

/-- The `pyramid` section. The factor is not checked yet. -/
structure PyramidSection where
  grid : Grid
  metatiling : Nat
  pixelbuffer : Nat
  deriving DecidableEq, Repr

/-- A natural number at a key, or a default where there is none. -/
def optionalNat (m : Mapping) (key : String) (default : Nat) : Except ConfigError Nat :=
  match Mapping.get? m key with
  | none | some .null => .ok default
  | some v =>
    match v.asLevel? with
    | some n => .ok n
    | none => .error (.pyramid (.notNatural key v))

/-- Reads the `pyramid` section. -/
def PyramidSection.ofMapping (m : Mapping) : Except ConfigError PyramidSection := do
  let some name := (Mapping.get? m "grid").bind Value.asString? | throw (.pyramid .gridMissing)
  let grid ← (Grid.ofName? name).mapError .ofGrid
  let metatiling ← optionalNat m "metatiling" 1
  let pixelbuffer ← optionalNat m "pixelbuffer" 0
  return ⟨grid, metatiling, pixelbuffer⟩

/-- The numbers of a sequence. -/
def floatsOfValues : List Value → Except ConfigError (List Float)
  | [] => .ok []
  | v :: rest =>
    match v.asFloat? with
    | none => .error (.bounds (.notNumber v))
    | some x => (floatsOfValues rest).map (x :: ·)

/-- Reads bounds: a sequence of four finite numbers. -/
def boundsOfValue (v : Value) : Except ConfigError (Box Float) :=
  match v.asSequence? with
  | none => .error (.bounds (.shape v))
  | some items =>
    match floatsOfValues items with
    | .error e => .error e
    | .ok numbers => (Box.ofList? numbers).mapError .ofBox

/-- A document whose structure is sound. -/
structure ProcessDocument where
  configDir : String
  /-- The file it was read from, if any. -/
  file : Option String
  processFile : String
  pyramid : PyramidSection
  zoomLevels : ZoomLevels
  /-- No bounds stand for the whole grid. -/
  bounds : Option (Box Float)
  output : Mapping
  baselevels : Option Mapping
  /-- Everything that is not reserved, `input` and `output` among it. -/
  params : List (NodeKey × Node)

namespace ProcessDocument

/-- Checks that a parameter is there and has its shape. -/
def checkParameter (m : Mapping) (key : String) (shape : Shape) : Except ConfigError Unit :=
  match Mapping.get? m key with
  | none => .error (.schema (.parameterMissing key))
  | some v =>
    if shape.accepts v then .ok () else .error (.schema (.parameterShape key shape v))

/-- Checks parameters one after the other. -/
def checkParameters (m : Mapping) : List (String × Shape) → Except ConfigError Unit
  | [] => .ok ()
  | (key, shape) :: rest =>
    match checkParameter m key shape with
    | .error e => .error e
    | .ok () => checkParameters m rest

/-- The value of a parameter. -/
def valueAt (m : Mapping) (key : String) : Except ConfigError Value :=
  match Mapping.get? m key with
  | some v => .ok v
  | none => .error (.schema (.parameterMissing key))

/-- The text of a parameter. -/
def textAt (m : Mapping) (key : String) : Except ConfigError String := do
  let v ← valueAt m key
  match v.asString? with
  | some s => return s
  | none => throw (.schema (.parameterNotText key))

/-- The entries of a parameter. -/
def mappingAt (m : Mapping) (key : String) : Except ConfigError Mapping := do
  let v ← valueAt m key
  match v.asMapping? with
  | some entries => return entries
  | none => throw (.schema (.parameterNotMapping key))

/-- The declared bounds, if there are any. -/
def boundsAt (m : Mapping) : Except ConfigError (Option (Box Float)) :=
  match Mapping.get? m "bounds" with
  | none | some .null => .ok none
  | some v => (boundsOfValue v).map some

/-- The `baselevels` section, if there is one. -/
def baselevelsAt (m : Mapping) : Except ConfigError (Option Mapping) :=
  match Mapping.get? m "baselevels" with
  | none | some .null => .ok none
  | some (.mapping entries) => .ok (some entries)
  | some v => .error (.schema (.baselevelsShape v))

/-- Reads all entries but the reserved ones; the first key that is refused decides. -/
def parseParams : List (Value × Value) → Except KeyError (List (NodeKey × Node))
  | [] => .ok []
  | (k, v) :: rest =>
    match keyText k with
    | .error e => .error e
    | .ok name =>
      if reservedParameters.contains name then parseParams rest
      else
        match NodeKey.parse name with
        | .error e => .error e
        | .ok key =>
          match Node.parse v with
          | .error e => .error e
          | .ok node => (parseParams rest).map ((key, node) :: ·)

/-- Checks a document in its current form. -/
def ofMapping (m : Mapping) (configDir : String) (file : Option String) :
    Except ConfigError ProcessDocument := do
  checkParameters m mandatoryParameters
  let processFile ← textAt m "process_file"
  let pyramid ← PyramidSection.ofMapping (← mappingAt m "pyramid")
  let zoomLevels ← (ZoomLevels.ofValue? (← valueAt m "zoom_levels")).mapError .zoomRange
  let bounds ← boundsAt m
  let output ← mappingAt m "output"
  let baselevels ← baselevelsAt m
  let params ← (parseParams m).mapError .ofKey
  return { configDir, file, processFile, pyramid, zoomLevels, bounds, output, baselevels, params }

end ProcessDocument

end ZoomConfig
