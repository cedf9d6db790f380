import ZoomConfig.Geometry.Box
/-!
Coordinate reference systems and the projection between them.

Geographic coordinates are degrees of longitude and latitude, projected ones are metres of the
spherical Mercator projection. Both have their axes in the same directions, so a box is projected by
its corners.

Correspondence (program ↔ module):
  `Crs::valid_bounds`     ↔ `validBox`
  `Crs::transform_bounds` ↔ `transform`
  `lonlat_to_mercator`    ↔ `eastward` and `northward`
  `mercator_to_lonlat`    ↔ `longitude` and `latitude`
-/
namespace ZoomConfig

/-- Geographic degrees or Mercator metres. -/
inductive Crs where
  | geographic
  | mercator
  deriving DecidableEq, Repr

/-- Half the side of the Mercator square in metres. -/
def mercatorHalfExtent : Float := 20037508.342789244

/-- The latitude at which the Mercator square ends. -/
def mercatorMaxLatitude : Float := 85.0511287798066

/-- The radius of the sphere in metres. -/
def earthRadius : Float := 6378137.0

/-- Half a turn. -/
def pi : Float := 3.141592653589793

namespace Projection

def radians (degrees : Float) : Float := degrees * (pi / 180.0)

def degrees (radians : Float) : Float := radians * 57.2957795130823208767981548141051703

/-- A latitude within the Mercator square; what is not a number stays as it is. -/
def clampLatitude (latitude : Float) : Float :=
  let low := if latitude < -mercatorMaxLatitude then -mercatorMaxLatitude else latitude
  if mercatorMaxLatitude < low then mercatorMaxLatitude else low

/-- Longitude to metres. -/
def eastward (longitude : Float) : Float := earthRadius * radians longitude

/-- Latitude to metres. -/
def northward (latitude : Float) : Float :=
  earthRadius * (pi / 4.0 + radians (clampLatitude latitude) / 2.0).tan.log

/-- Metres to longitude. -/
def longitude (x : Float) : Float := degrees (x / earthRadius)

/-- Metres to latitude. -/
def latitude (y : Float) : Float := degrees (2.0 * (y / earthRadius).exp.atan - pi / 2.0)

end Projection

namespace Crs

/-- The code by which a system is known. -/
def code : Crs → String
  | .geographic => "EPSG:4326"
  | .mercator => "EPSG:3857"

/-- The extent within which a system is defined. -/
def validBox : Crs → Box Float
  | .geographic => ⟨-180.0, -90.0, 180.0, 90.0⟩
  | .mercator =>
    ⟨-mercatorHalfExtent, -mercatorHalfExtent, mercatorHalfExtent, mercatorHalfExtent⟩

/-- A box of one system in coordinates of another. -/
def transform (source target : Crs) (b : Box Float) : Box Float :=
  match source, target with
  | .geographic, .mercator =>
    { left := Projection.eastward b.left
      bottom := Projection.northward b.bottom
      right := Projection.eastward b.right
      top := Projection.northward b.top }
  | .mercator, .geographic =>
    { left := Projection.longitude b.left
      bottom := Projection.latitude b.bottom
      right := Projection.longitude b.right
      top := Projection.latitude b.top }
  | _, _ => b

end Crs

end ZoomConfig
