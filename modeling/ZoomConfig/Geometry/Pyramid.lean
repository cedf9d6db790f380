import ZoomConfig.Geometry.Crs
import ZoomConfig.Text.Case
/-!
Tile pyramids.

A pyramid is a grid with a metatiling factor, which groups tiles, and a pixelbuffer, which lets them
overlap. The factor is one of `metatilings`, and the type holds the proof of it.

Correspondence (program ↔ module):
  `GridType`           ↔ `Grid`
  `GridType::from_str` ↔ `Grid.ofName?`
  `TilePyramid`        ↔ `Pyramid`
  `TilePyramid::new`   ↔ `Pyramid.new?`
-/
namespace ZoomConfig

/-- The layout of tiles. -/
inductive Grid where
  | geodetic
  | mercator
  deriving DecidableEq, Repr

/-- Why there is no such grid or pyramid. -/
inductive GridError where
  | unknownGrid (text : String)
  | metatiling (factor : Nat)
  deriving DecidableEq, Repr

/-- What is wrong, in words. -/
def GridError.message : GridError → String
  | .unknownGrid text =>
    "Unknown grid type: " ++ text ++ ". Must be one of: geodetic, mercator"
  | .metatiling factor =>
    "Invalid metatiling " ++ toString factor ++ ": must be one of 1, 2, 4, 8, 16"

namespace Grid

def name : Grid → String
  | .geodetic => "geodetic"
  | .mercator => "mercator"

/-- The grid of a name, whatever its case. -/
def ofName? (text : String) : Except GridError Grid :=
  let name := Text.lower text
  if name = "geodetic" then .ok .geodetic
  else if name = "mercator" then .ok .mercator
  else .error (.unknownGrid text)

/-- The system of the grid's coordinates. -/
def crs : Grid → Crs
  | .geodetic => .geographic
  | .mercator => .mercator

/-- The extent of the grid. -/
def bounds (g : Grid) : Box Float := g.crs.validBox

end Grid

/-- The metatiling factors. -/
def metatilings : List Nat := [1, 2, 4, 8, 16]

/-- A grid with metatiles of a given size and overlap. -/
structure Pyramid where
  grid : Grid
  metatiling : Nat
  pixelbuffer : Nat
  metatiling_mem : metatiling ∈ metatilings

namespace Pyramid

/-- The pyramid, if the factor is one of those allowed. -/
def new? (grid : Grid) (metatiling pixelbuffer : Nat) : Except GridError Pyramid :=
  if h : metatiling ∈ metatilings then .ok ⟨grid, metatiling, pixelbuffer, h⟩
  else .error (.metatiling metatiling)

def crs (p : Pyramid) : Crs := p.grid.crs

def bounds (p : Pyramid) : Box Float := p.grid.bounds

end Pyramid

end ZoomConfig
