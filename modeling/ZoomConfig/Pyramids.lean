import ZoomConfig.Document.Schema
import ZoomConfig.Path
/-!
The pyramids of a process, and what its output driver is given.

Process and output share one grid. The output's metatiles are those of the process unless smaller
ones are asked for.

Correspondence (program ↔ module):
  `build_pyramids` ↔ `Pyramids.build`
  `output_params`  ↔ `OutputParams.ofMapping`
-/
namespace ZoomConfig

/-- The pyramid that is processed and the one that is written. -/
structure Pyramids where
  process : Pyramid
  output : Pyramid

/-- Builds both pyramids. -/
def Pyramids.build (declared : PyramidSection) (output : Mapping) :
    Except ConfigError Pyramids := do
  let process ←
    (Pyramid.new? declared.grid declared.metatiling declared.pixelbuffer).mapError .ofGrid
  let metatiling ← optionalNat output "metatiling" declared.metatiling
  if metatiling > declared.metatiling then
    throw (.pyramid (.outputTooCoarse metatiling declared.metatiling))
  let pixelbuffer ← optionalNat output "pixelbuffer" 0
  let output ← (Pyramid.new? declared.grid metatiling pixelbuffer).mapError .ofGrid
  return { process, output }

/-- The parameters of an output. -/
structure OutputParams where
  format : String
  /-- The path of the output seen from the base directory, if the document gives one. -/
  path : Option String
  grid : Grid
  pixelbuffer : Nat
  metatiling : Nat
  /-- The keys that are left for the driver. -/
  extra : Mapping

namespace OutputParams

/-- The keys of the output section that the other fields stand for. -/
def derivedKeys : List String := [formatKey, "path", "type", "pixelbuffer", "metatiling"]

/-- The path of the output, seen from the base directory. -/
def pathOf (output : Mapping) (configDir : String) : Except ConfigError (Option String) :=
  match Mapping.get? output "path" with
  | none | some .null => .ok none
  | some (.string path) => .ok (some (Path.fromBase path configDir))
  | some v => .error (.schema (.outputPathShape v))

/-- Is a key left for the driver? -/
def isExtra (key : Value) : Bool :=
  match key.asString? with
  | some name => !derivedKeys.contains name
  | none => true

/-- Reads the output section; the format must be one of those available. -/
def ofMapping (output : Mapping) (configDir : String) (pyramid : Pyramid)
    (available : List String) : Except ConfigError OutputParams := do
  let some format := (Mapping.get? output formatKey).bind Value.asString?
    | throw (.schema .outputFormatMissing)
  if !available.contains format then throw (.schema (.outputFormatUnknown format available))
  let path ← pathOf output configDir
  return {
    format, path
    grid := pyramid.grid
    pixelbuffer := pyramid.pixelbuffer
    metatiling := pyramid.metatiling
    extra := output.filter fun e => isExtra e.1 }

end OutputParams

end ZoomConfig
