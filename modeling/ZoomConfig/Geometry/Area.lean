import ZoomConfig.Geometry.Box
/-!
Areas: unions of boxes.

An area is kept as the list of its boxes. A box that is added is dropped if it is empty or lies
within a box already there, and it takes the place of the boxes that lie within it.

Correspondence (program ↔ module):
  `Area::from_bounds`       ↔ `ofBox`
  `Area::push`              ↔ `push`
  `Area::union_all`         ↔ `unionAll`
  `Area::union`             ↔ `union`
  `Area::intersection_with` ↔ `clip`
  `Area::envelope`          ↔ `envelope`
  `Area::measure`           ↔ `measure`
  `Area::covers`            ↔ `covers`
  `Area::same_extent`       ↔ `sameExtent`
-/
namespace ZoomConfig

/-- A union of boxes, which may be empty. -/
structure Area (α : Type) where
  parts : List (Box α)
  deriving DecidableEq, Repr

namespace Area

variable {α : Type} [Coordinate α]

/-- The area without a box. -/
def empty : Area α := ⟨[]⟩

/-- Adds a box. -/
def push (a : Area α) (b : Box α) : Area α :=
  if b.isEmpty || a.parts.any (·.contains b) then a
  else ⟨a.parts.filter (fun p => !b.contains p) ++ [b]⟩

/-- Adds boxes one after the other. -/
def pushAll (a : Area α) (boxes : List (Box α)) : Area α := boxes.foldl push a

/-- The area of one box. -/
def ofBox (b : Box α) : Area α := push empty b

/-- The union of all areas of a list. -/
def unionAll (areas : List (Area α)) : Area α := pushAll empty (areas.flatMap Area.parts)

/-- The union of two areas. -/
def union (a b : Area α) : Area α := unionAll [a, b]

/-- The part of an area within a box. -/
def clip (a : Area α) (b : Box α) : Area α :=
  pushAll empty (a.parts.filterMap (·.intersection? b))

def isEmpty (a : Area α) : Bool := a.parts.isEmpty

/-- The smallest box around an area, none for the empty one. -/
def envelope (a : Area α) : Option (Box α) :=
  match a.parts with
  | [] => none
  | first :: rest => some (rest.foldl Box.hull first)

/-- Drops the coordinates at the front that equal `x`, and every later one that equals the one kept
before it. -/
def dropEqual (x : α) : List α → List α
  | [] => []
  | y :: rest => if Coordinate.same x y then dropEqual x rest else y :: dropEqual y rest

/-- Keeps one of equal coordinates that stand together. -/
def dropRepeats : List α → List α
  | [] => []
  | x :: rest => x :: dropEqual x rest

/-- Consecutive pairs. -/
def windows (xs : List α) : List (α × α) := xs.zip xs.tail

/-- The length covered by spans that come in the order of their lower ends. `start` and `stop` are
the ends of the stretch that is being grown, `covered` the length of those before it. -/
def coveredFrom (start stop covered : α) : List (α × α) → α
  | [] => covered + (stop - start)
  | (low, high) :: rest =>
    if stop < low then coveredFrom low high (covered + (stop - start)) rest
    else if stop < high then coveredFrom start high covered rest
    else coveredFrom start stop covered rest

/-- The boxes' spans from bottom to top over the slab from `x0` to `x1`, by their lower ends. -/
def slabSpans (boxes : List (Box α)) (x0 x1 : α) : List (α × α) :=
  ((boxes.filter fun b => b.left ≤ x0 && x1 ≤ b.right).map fun b => (b.bottom, b.top)).mergeSort
    fun s t => Coordinate.sortsBefore s.1 t.1

/-- Adds the surface over one slab. -/
def addSlab (boxes : List (Box α)) (total : α) (slab : α × α) : α :=
  match slabSpans boxes slab.1 slab.2 with
  | [] => total
  | (low, high) :: rest =>
    total + coveredFrom low high Coordinate.zero rest * (slab.2 - slab.1)

/-- The covered surface, overlaps counted once: a sweep over the slabs between consecutive sides. -/
def measure (a : Area α) : α :=
  let sides := (a.parts.flatMap fun b => [b.left, b.right]).mergeSort Coordinate.sortsBefore
  (windows (dropRepeats sides)).foldl (addSlab a.parts) Coordinate.zero

/-- Does `a` cover `b`, but for a surface within the tolerance? -/
def covers (a b : Area α) : Bool :=
  let own := a.measure
  let merged := (a.union b).measure
  Coordinate.abs (merged - own) ≤ Coordinate.tolerance * Coordinate.larger merged Coordinate.one

/-- Do two areas cover each other? -/
def sameExtent (a b : Area α) : Bool := a.covers b && b.covers a

end Area

end ZoomConfig
