import ZoomConfig.Error
import ZoomConfig.Json.Basic
/-!
Baselevels: zoom levels whose tiles are made from those of a neighbouring level.

The tiles of a level come from the next finer one with the `lower` method, or from the next coarser
one with the `higher` method.

Correspondence (program ↔ module):
  `Resampling::from_str` ↔ `Resampling.ofName?`
  `Resampling::as_str`   ↔ `Resampling.name`
  `resampling_at`        ↔ `Resampling.at?`
  `resolve_baselevels`   ↔ `Baselevels.ofMapping`
-/
namespace ZoomConfig

/-- How tiles are made from others. -/
inductive Resampling where
  | nearest
  | bilinear
  | cubic
  | cubicSpline
  | lanczos
  | average
  | mode
  | gauss
  deriving DecidableEq, Repr

namespace Resampling

/-- All methods. -/
def all : List Resampling :=
  [.nearest, .bilinear, .cubic, .cubicSpline, .lanczos, .average, .mode, .gauss]

def name : Resampling → String
  | .nearest => "nearest"
  | .bilinear => "bilinear"
  | .cubic => "cubic"
  | .cubicSpline => "cubic_spline"
  | .lanczos => "lanczos"
  | .average => "average"
  | .mode => "mode"
  | .gauss => "gauss"

/-- The method of a name, in lower case only. -/
def ofName? (text : String) : Except ConfigError Resampling :=
  match all.find? (·.name == text) with
  | some r => .ok r
  | none => .error (.schema (.resamplingUnknown text))

/-- The method at a key of the section; the nearest tile is the default. -/
def at? (m : Mapping) (key : String) : Except ConfigError Resampling :=
  match Mapping.get? m key with
  | none | some .null => .ok .nearest
  | some (.string text) => ofName? text
  | some v => .error (.schema (.resamplingShape key v))

end Resampling

/-- The baselevels of a process. -/
structure Baselevels where
  zooms : ZoomLevels
  lower : Resampling
  higher : Resampling
  /-- Grid and pixelbuffer of the output with the metatiling of the process. -/
  tilePyramid : Pyramid

namespace Baselevels

/-- A bound of the section, unless it is missing or null. -/
def bound? (m : Mapping) (key : String) : Option Value :=
  (Mapping.get? m key).filter fun v => !v.isNull

/-- The zoom level of a bound, or a default where there is none. -/
def boundOr (what : String) (default : Nat) : Option Value → Except ZoomRangeError Nat
  | some v => zoomOfValue what v
  | none => .ok default

/-- Reads the `baselevels` section. A missing bound is that of the process. -/
def ofMapping (m : Mapping) (zooms : ZoomLevels) (process output : Pyramid) :
    Except ConfigError Baselevels := do
  let min := bound? m "min"
  let max := bound? m "max"
  if min.isNone && max.isNone then throw (.zoomRange .baselevelsUnbounded)
  let min ← (boundOr "baselevels min" zooms.min min).mapError .zoomRange
  let max ← (boundOr "baselevels max" zooms.max max).mapError .zoomRange
  let tilePyramid ←
    (Pyramid.new? output.grid process.metatiling output.pixelbuffer).mapError .ofGrid
  let zooms ← (ZoomLevels.new? min max).mapError .zoomRange
  let lower ← Resampling.at? m "lower"
  let higher ← Resampling.at? m "higher"
  return { zooms, lower, higher, tilePyramid }

end Baselevels

end ZoomConfig
