import ZoomConfig.Decimal.Layout
import ZoomConfig.Geometry.Coordinate
/-!
Axis-aligned boxes.

A box holds the points from its left to its right side and from its bottom to its top. Nothing keeps
the sides in order: an inverted box holds no point.

Correspondence (program ↔ module):
  `Bounds`               ↔ `Box`
  `Bounds::from_slice`   ↔ `ofList?`
  `Bounds::is_empty`     ↔ `isEmpty`
  `Bounds::intersects`   ↔ `intersects`
  `Bounds::intersection` ↔ `intersection?`
  `Bounds::union`        ↔ `hull`
  `Bounds::contains`     ↔ `contains`
-/
namespace ZoomConfig

/-- Left, bottom, right and top of an extent. -/
structure Box (α : Type) where
  left : α
  bottom : α
  right : α
  top : α
  deriving DecidableEq, Repr

/-- Why four numbers make no box. -/
inductive BoxError where
  | count (found : Nat)
  | notFinite (values : List Float)

/-- Numbers in square brackets. -/
def floatListText (values : List Float) : String :=
  "[" ++ ", ".intercalate (values.map Decimal.messageLayout.write) ++ "]"

/-- What is wrong, in words. -/
def BoxError.message : BoxError → String
  | .count found => "expected 4 values (left, bottom, right, top), got " ++ toString found
  | .notFinite values => "bounds must be finite numbers: " ++ floatListText values

namespace Box

/-- The box with the given sides. -/
def ofList? : List Float → Except BoxError (Box Float)
  | [left, bottom, right, top] =>
    if [left, bottom, right, top].all Float.isFinite then .ok ⟨left, bottom, right, top⟩
    else .error (.notFinite [left, bottom, right, top])
  | values => .error (.count values.length)

/-- Left, bottom, right, top. -/
def toList {α : Type} (b : Box α) : List α := [b.left, b.bottom, b.right, b.top]

/-- The same box in other coordinates. -/
def map {α β : Type} (f : α → β) (b : Box α) : Box β :=
  ⟨f b.left, f b.bottom, f b.right, f b.top⟩

variable {α : Type} [Coordinate α]

/-- The box that doubles stand for. -/
def ofFloats (b : Box Float) : Box α := b.map Coordinate.ofFloat

def width (b : Box α) : α := b.right - b.left

def height (b : Box α) : α := b.top - b.bottom

/-- Width or height is not positive, so that no surface is enclosed. -/
def isEmpty (b : Box α) : Bool :=
  !(Coordinate.zero < b.width && Coordinate.zero < b.height)

/-- Do two boxes share more than their sides? -/
def intersects (a b : Box α) : Bool :=
  a.left < b.right && b.left < a.right && a.bottom < b.top && b.bottom < a.top

/-- The part that two boxes share. -/
def intersection? (a b : Box α) : Option (Box α) :=
  if a.intersects b then
    some
      { left := Coordinate.larger a.left b.left
        bottom := Coordinate.larger a.bottom b.bottom
        right := Coordinate.smaller a.right b.right
        top := Coordinate.smaller a.top b.top }
  else none

/-- The smallest box around two. -/
def hull (a b : Box α) : Box α :=
  { left := Coordinate.smaller a.left b.left
    bottom := Coordinate.smaller a.bottom b.bottom
    right := Coordinate.larger a.right b.right
    top := Coordinate.larger a.top b.top }

/-- Does `b` lie within `a`? -/
def contains (a b : Box α) : Bool :=
  a.left ≤ b.left && b.right ≤ a.right && a.bottom ≤ b.bottom && b.top ≤ a.top

/-- Side by side equality of coordinates. -/
def same (a b : Box α) : Bool :=
  Coordinate.same a.left b.left && Coordinate.same a.bottom b.bottom &&
    Coordinate.same a.right b.right && Coordinate.same a.top b.top

end Box

end ZoomConfig
