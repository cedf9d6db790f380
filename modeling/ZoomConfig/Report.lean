import ZoomConfig.Configuration.Query
/-!
The report on a configuration: what a process sees at every zoom level.

A report is written as text for a reader, or as JSON.

Correspondence (program ↔ module):
  `ConfigReport::build` ↔ `Report.build`
  `ConfigReport::fmt`   ↔ `Report.text`
  `declaration_label`   ↔ `Declaration.label`
  `format_bounds`       ↔ `boxText`
  `inline_yaml`         ↔ `Value.inline`
-/
namespace ZoomConfig

/-- A value as JSON on one line; a value that JSON cannot hold is described. -/
def Value.inline (v : Value) : String :=
  match Json.ofValue v with
  | .ok j => j.compact
  | .error _ => v.describe

/-- A key as text; only text stands without quotes. -/
def Value.keyLabel : Value → String
  | .string s => s
  | v => v.inline

/-- A declaration in a report: its path, or its format and content. -/
def Declaration.label : Declaration → String
  | .path text => text
  | .entries m => describeEntries m ++ " (" ++ (Value.mapping m).inline ++ ")"

/-- A box as four numbers. -/
def boxText : Option (Box Float) → String
  | some b => ", ".intercalate (b.toList.map Decimal.reportLayout.write)
  | none => "empty"

/-- A box as four JSON numbers. -/
def boxJson : Option (Box Float) → Json
  | some b => .array (b.toList.map Json.ofFloat)
  | none => .null

/-- A range as JSON. -/
def ZoomLevels.json (z : ZoomLevels) : Json :=
  .object [("min", .ofNat z.min), ("max", .ofNat z.max)]

/-- A pyramid as JSON. -/
def Pyramid.json (p : Pyramid) : Json :=
  .object [("grid", .string p.grid.name), ("metatiling", .ofNat p.metatiling),
    ("pixelbuffer", .ofNat p.pixelbuffer)]

/-- Baselevels as JSON. -/
def Baselevels.json (b : Baselevels) : Json :=
  .object [("zooms", b.zooms.json), ("lower", .string b.lower.name),
    ("higher", .string b.higher.name), ("tile_pyramid", b.tilePyramid.json)]

/-- The report on one zoom level. -/
structure ZoomReport where
  zoom : Nat
  params : Mapping
  /-- The labels of declarations by their paths; none where nothing is bound. -/
  inputs : Dict String (Option String)
  bounds : Option (Box Float)

/-- The report on a configuration. -/
structure Report where
  configDir : String
  processFile : String
  mode : Mode
  zoomLevels : ZoomLevels
  initZooms : ZoomLevels
  processBounds : Box Float
  initBounds : Box Float
  outputFormat : String
  globalBounds : Option (Box Float)
  baselevels : Option Baselevels
  deprecations : List Deprecation
  zooms : List ZoomReport

namespace ZoomReport

variable {m : Type → Type} [Monad m]

/-- The report on one zoom level of a configuration. -/
def build (c : Configuration m Float) (zoom : Nat) : Cached m Float ZoomReport := do
  let snapshot ← ExceptT.mk (pure (c.snapshot zoom))
  let declarations ← ExceptT.mk (pure (c.declarationsAt zoom))
  let bounds ← c.boundsAt (some zoom)
  return {
    zoom
    params := snapshot.params
    inputs := declarations.map fun (path, d) => (path, d.map Declaration.label)
    bounds }

/-- The reports on several zoom levels. -/
def buildAll (c : Configuration m Float) : List Nat → Cached m Float (List ZoomReport)
  | [] => return []
  | zoom :: rest => do
    let here ← build c zoom
    return here :: (← buildAll c rest)

/-- The lines on one zoom level, after an empty one. -/
def lines (z : ZoomReport) : List String :=
  ["", "zoom " ++ toString z.zoom, "  bounds: " ++ boxText z.bounds] ++
    (if z.inputs.isEmpty then []
    else "  inputs:" :: z.inputs.map fun (path, label) =>
      "    " ++ path ++ ": " ++ label.getD "-") ++
    (if z.params.isEmpty then []
    else "  params:" :: z.params.map fun (key, value) =>
      "    " ++ key.keyLabel ++ ": " ++ value.inline)

/-- The report on one zoom level as JSON. -/
def json (z : ZoomReport) : Except JsonKeyError Json :=
  (Json.ofValue (.mapping z.params)).map fun params =>
    .object [("zoom", .ofNat z.zoom), ("params", params),
      ("inputs", .object (z.inputs.map fun (path, label) =>
        (path, (label.map Json.string).getD .null))),
      ("bounds", boxJson z.bounds)]

/-- The reports on several zoom levels as JSON; the first that cannot be written decides. -/
def jsonAll : List ZoomReport → Except JsonKeyError (List Json)
  | [] => .ok []
  | z :: rest =>
    match z.json with
    | .error e => .error e
    | .ok j => (jsonAll rest).map (j :: ·)

end ZoomReport

namespace Report

/-- The report on a configuration. -/
def build {m : Type → Type} [Monad m] (c : Configuration m Float) : Cached m Float Report := do
  let zooms ← ZoomReport.buildAll c c.initZooms.toList
  let globalBounds ← c.boundsAt none
  return {
    configDir := c.document.configDir
    processFile := c.processFile
    mode := c.mode
    zoomLevels := c.document.zoomLevels
    initZooms := c.initZooms
    processBounds := c.bounds
    initBounds := c.initBounds
    outputFormat := c.outputParams.format
    globalBounds
    baselevels := c.baselevels
    deprecations := c.deprecations
    zooms }

/-- The line on baselevels. -/
def baselevelsLine (b : Baselevels) : String :=
  "baselevels:    " ++ b.zooms.text ++ " (lower " ++ b.lower.name ++ ", higher " ++
    b.higher.name ++ ")"

/-- All lines. -/
def lines (r : Report) : List String :=
  ["config dir:    " ++ r.configDir,
    "process file:  " ++ r.processFile,
    "mode:          " ++ r.mode.name,
    "output format: " ++ r.outputFormat,
    "zoom levels:   " ++ r.zoomLevels.text ++ " (initialized " ++ r.initZooms.text ++ ")",
    "bounds:        " ++ boxText (some r.processBounds),
    "init bounds:   " ++ boxText (some r.initBounds),
    "area bounds:   " ++ boxText r.globalBounds] ++
    (r.baselevels.map baselevelsLine).toList ++
    r.deprecations.map (fun d => "deprecated:    " ++ d.message) ++
    r.zooms.flatMap ZoomReport.lines

/-- The report as text. -/
def text (r : Report) : String := String.join (r.lines.map (· ++ "\n"))

/-- The report as JSON. -/
def json (r : Report) : Except JsonKeyError Json :=
  (ZoomReport.jsonAll r.zooms).map fun zooms =>
    .object [("config_dir", .string r.configDir), ("process_file", .string r.processFile),
      ("mode", .string r.mode.name), ("zoom_levels", .string r.zoomLevels.text),
      ("init_zoom_levels", .string r.initZooms.text),
      ("process_bounds", boxJson (some r.processBounds)),
      ("init_bounds", boxJson (some r.initBounds)),
      ("output_format", .string r.outputFormat), ("global_bounds", boxJson r.globalBounds),
      ("baselevels", (r.baselevels.map Baselevels.json).getD .null),
      ("deprecations", .array (r.deprecations.map fun d => .string d.message)),
      ("zooms", .array zooms)]

end Report

end ZoomConfig
