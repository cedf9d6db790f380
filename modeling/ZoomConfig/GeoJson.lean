import ZoomConfig.Driver
import ZoomConfig.Json.Reader
/-!
GeoJSON inputs and outputs.

An input is read once for the extent of its positions. A position is an array that begins with two
numbers; it is looked for in arrays and in the members that hold geometry, and nowhere else.
Positions are always geographic.

Correspondence (program ↔ module):
  `GeoJsonDriver::load`                 ↔ `load`
  `GeoJsonReader::open`                 ↔ `open?`
  `GeoJsonReader::parse`                ↔ `parse`
  `GeoJsonReader::bbox`                 ↔ `bbox`
  `collect_extent`                      ↔ `positions` with `extent`
  `GeoJsonWriter::is_valid_with_config` ↔ `checkOutput`
  `DriverRegistry::with_builtin`        ↔ `drivers`
-/
namespace ZoomConfig.GeoJson

/-- The name of the format. -/
def formatName : String := "GeoJSON"

/-- The members that lead to positions. -/
def geometryMembers : List String := ["coordinates", "geometry", "geometries", "features"]

mutual

/-- The positions of a value. -/
def positions : Json → List (Number × Number)
  | .object members =>
    let found := memberPositions members
    geometryMembers.flatMap fun name => ((found.find? (·.1 == name)).map (·.2)).getD []
  | .array items =>
    match items with
    | .number x :: .number y :: _ => [(x, y)]
    | items => itemPositions items
  | _ => []

/-- The positions of each member, with its name. -/
def memberPositions : List (String × Json) → List (String × List (Number × Number))
  | [] => []
  | (name, value) :: rest => (name, positions value) :: memberPositions rest

/-- The positions of all items. -/
def itemPositions : List Json → List (Number × Number)
  | [] => []
  | item :: rest => positions item ++ itemPositions rest

end

/-- The box of a single position. -/
def pointBox {α : Type} [Coordinate α] (p : Number × Number) : Box α :=
  let x := Coordinate.ofFloat p.1.toFloat
  let y := Coordinate.ofFloat p.2.toFloat
  ⟨x, y, x, y⟩

/-- The smallest box around positions, none if there are none. -/
def extent {α : Type} [Coordinate α] : List (Number × Number) → Option (Box α)
  | [] => none
  | p :: rest => some (rest.foldl (fun b q => b.hull (pointBox q)) (pointBox p))

/-- What is kept of a file. -/
structure Reader (α : Type) where
  path : String
  features : Nat
  bounds : Option (Box α)

/-- The text of a value. -/
def text? : Json → Option String
  | .string s => some s
  | _ => none

/-- How many features a value counts for, or what is missing. -/
def featureCount (value : Json) : Except String Nat :=
  match (value.member? "type").bind text? with
  | none => .error "missing GeoJSON 'type'"
  | some kind =>
    if kind = "FeatureCollection" then
      match value.member? "features" with
      | some (.array items) => .ok items.length
      | _ => .error "FeatureCollection without 'features'"
    else .ok 1

namespace Reader

variable {α : Type} [Coordinate α]

/-- Scans a value. -/
def ofJson (path : String) (value : Json) : Except DriverError (Reader α) :=
  match featureCount value with
  | .error reason => .error (.invalidData path reason)
  | .ok features => .ok ⟨path, features, extent (positions value)⟩

/-- Scans a text. -/
def parse (path text : String) : Except DriverError (Reader α) :=
  match Json.parse? text with
  | none => .error (.invalidData path "JSON error")
  | some value => ofJson path value

/-- Scans a file. -/
def open? {m : Type → Type} [Monad m] (files : Files m) (path : String) :
    m (Except DriverError (Reader α)) := do
  match ← files.readText path with
  | .error cause => return .error (.unopened path cause.message)
  | .ok text => return parse path text

/-- The area that an input covers in a system. -/
def bbox (r : Reader Float) (crs : Crs) : Area Float :=
  match r.bounds with
  | some b => .ofBox (Crs.geographic.transform crs b)
  | none => .empty

end Reader

/-- The path that a source leads to, if it gives one. -/
def sourcePath : InputSource → Except DriverError String
  | .path text => .ok text
  | .entries params configDir =>
    match (Mapping.get? params "path").bind Value.asString? with
    | none => .error (.other "GeoJSON input requires a 'path'")
    | some path => .ok (Path.fromBase path configDir)

/-- The path of a file that can be opened; others are refused. -/
def localPath (source : InputSource) : Except DriverError String :=
  match sourcePath source with
  | .error e => .error e
  | .ok path =>
    if Path.isRemote path then .error (.unopened path "remote GeoJSON inputs are not supported")
    else .ok path

/-- Opens a source. -/
def load {m : Type → Type} [Monad m] (files : Files m) (source : InputSource) :
    m (Except DriverError (Reader Float)) :=
  match localPath source with
  | .error e => return .error e
  | .ok path => Reader.open? files path

/-- The driver for inputs. -/
def inputDriver {m : Type → Type} [Monad m] (files : Files m) : InputDriver m Float where
  name := formatName
  extensions := ["geojson", "json"]
  load request := do
    match ← load files request.source with
    | .error e => return .error e
    | .ok reader => return .ok ⟨formatName, fun crs => pure (.ok (reader.bbox crs))⟩

/-- Output needs a path and a geodetic grid. -/
def checkOutput (params : OutputParams) : Except DriverError Unit :=
  if params.path.isNone then .error (.incompatible "GeoJSON output requires a 'path'")
  else if params.grid ≠ .geodetic then
    .error (.incompatible ("GeoJSON output requires a geodetic pyramid, got " ++ params.grid.name))
  else .ok ()

/-- The driver for outputs. -/
def outputDriver {m : Type → Type} [Monad m] : OutputDriver m where
  name := formatName
  load _ := return .ok ⟨formatName, fun params => return checkOutput params⟩

/-- The drivers that are always there. -/
def drivers {m : Type → Type} [Monad m] (files : Files m) : Drivers m Float :=
  (Drivers.empty.addInput (inputDriver files)).addOutput outputDriver

end ZoomConfig.GeoJson
