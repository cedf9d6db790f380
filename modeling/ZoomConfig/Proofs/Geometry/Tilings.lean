import Mathlib.Algebra.Order.BigOperators.Group.List
import Mathlib.Data.List.Pairwise
import ZoomConfig.Proofs.Geometry.Surface
/-!
The surface of a set of points.

A set that boxes without common points make up is tiled by them (`Tiles`), and its surface is that of
the boxes together (`HasSurface`). The sides of two tilings are lines of one grid, and on a grid the
surface of disjoint boxes depends on their points alone (`surfaceOn_boxes`). So a set has one surface,
however it is tiled (`HasSurface.unique`). Disjoint sets add up, an area has the surface that the sweep
gives, and the points of one area outside another can be tiled too (`exists_hasSurface_diff`).
-/
namespace ZoomConfig.Area

/-- Boxes that are not empty, share no point, and have the points of a set together. -/
structure Tiles (boxes : List (Box ℚ)) (s : Set (ℚ × ℚ)) : Prop where
  solid : ∀ b ∈ boxes, b.isEmpty = false
  disjoint : boxes.Pairwise fun b c => Disjoint b.points c.points
  points : (⋃ b ∈ boxes, b.points) = s

/-- The set can be tiled by boxes with this surface together. -/
def HasSurface (s : Set (ℚ × ℚ)) (x : ℚ) : Prop :=
  ∃ boxes, Tiles boxes s ∧ (boxes.map Box.surface).sum = x

/-! ## Surfaces on a grid -/

/-- The surface of the cells between two sets of lines whose lower left corners pass a test. -/
def surfaceOn (xs ys : List ℚ) (test : ℚ × ℚ → Bool) : ℚ :=
  ((windows xs).map fun g => lengthOf ys (fun y => test (g.1, y)) * (g.2 - g.1)).sum

section Grid

variable {xs ys : List ℚ} {test other : ℚ × ℚ → Bool}

theorem surfaceOn_none (xs ys : List ℚ) : surfaceOn xs ys (fun _ => false) = 0 := by
  have none : lengthOf ys (fun _ => false) = 0 := lengthOf_none fun _ _ => rfl
  simp [surfaceOn, none]

theorem surfaceOn_or (disjoint : ∀ p, test p = true → other p = false) :
    surfaceOn xs ys (fun p => test p || other p) = surfaceOn xs ys test + surfaceOn xs ys other := by
  unfold surfaceOn
  rw [← List.sum_map_add]
  refine congrArg List.sum (List.map_congr_left fun g _ => ?_)
  rw [lengthOf_or fun y => disjoint (g.1, y), add_mul]

/-- Is a point in a box? -/
def inBox (b : Box ℚ) (p : ℚ × ℚ) : Bool := decide (p ∈ b.points)

theorem inBox_eq (b : Box ℚ) (x y : ℚ) :
    inBox b (x, y) = (inSpan b.left b.right x && inSpan b.bottom b.top y) := by
  rw [Bool.eq_iff_iff, Bool.and_eq_true, inSpan_iff, inSpan_iff, inBox, decide_eq_true_iff]
  exact and_assoc.symm

theorem surfaceOn_box (hx : xs.Pairwise (· < ·)) (hy : ys.Pairwise (· < ·)) {b : Box ℚ}
    (solid : b.isEmpty = false) (sidesX : b.left ∈ xs ∧ b.right ∈ xs)
    (sidesY : b.bottom ∈ ys ∧ b.top ∈ ys) : surfaceOn xs ys (inBox b) = b.surface := by
  obtain ⟨wide, high⟩ := Box.isEmpty_eq_false_iff.mp solid
  have slab : ∀ g : ℚ × ℚ, lengthOf ys (fun y => inBox b (g.1, y)) * (g.2 - g.1) =
      b.height * if inSpan b.left b.right g.1 then g.2 - g.1 else 0 := by
    intro g
    have column : lengthOf ys (inSpan b.bottom b.top) = b.height :=
      lengthOf_span hy sidesY.1 sidesY.2 high.le
    simp only [inBox_eq]
    cases inSpan b.left b.right g.1 with
    | false => simp [lengthOf_none]
    | true => simp [← column]
  calc surfaceOn xs ys (inBox b)
      = ((windows xs).map fun g =>
          b.height * if inSpan b.left b.right g.1 then g.2 - g.1 else 0).sum := by
        exact congrArg List.sum (List.map_congr_left fun g _ => slab g)
    _ = b.height * lengthOf xs (inSpan b.left b.right) := by rw [List.sum_map_mul_left]; rfl
    _ = b.height * b.width := by rw [lengthOf_span hx sidesX.1 sidesX.2 wide.le]; rfl
    _ = b.surface := mul_comm _ _

/-- On a grid with all their sides disjoint boxes have the surface of the points that are in one of
them. -/
theorem surfaceOn_boxes (hx : xs.Pairwise (· < ·)) (hy : ys.Pairwise (· < ·)) :
    ∀ {boxes : List (Box ℚ)}, (∀ b ∈ boxes, b.isEmpty = false) →
    (boxes.Pairwise fun b c => Disjoint b.points c.points) →
    (∀ b ∈ boxes, (b.left ∈ xs ∧ b.right ∈ xs) ∧ b.bottom ∈ ys ∧ b.top ∈ ys) →
    (boxes.map Box.surface).sum = surfaceOn xs ys fun p => boxes.any (inBox · p)
  | [], _, _, _ => (surfaceOn_none xs ys).symm
  | b :: rest, solid, disjoint, sides => by
    obtain ⟨here, solid⟩ := List.forall_mem_cons.mp solid
    obtain ⟨apart, disjoint⟩ := List.pairwise_cons.mp disjoint
    obtain ⟨⟨sidesX, sidesY⟩, sides⟩ := List.forall_mem_cons.mp sides
    have alone : ∀ p, inBox b p = true → rest.any (inBox · p) = false := by
      intro p inside
      rw [Bool.eq_false_iff, ne_eq, List.any_eq_true]
      rintro ⟨c, mem, there⟩
      exact Set.disjoint_left.mp (apart c mem) (of_decide_eq_true inside) (of_decide_eq_true there)
    calc b.surface + (rest.map Box.surface).sum
        = surfaceOn xs ys (inBox b) + surfaceOn xs ys fun p => rest.any (inBox · p) := by
          rw [surfaceOn_box hx hy here sidesX sidesY, surfaceOn_boxes hx hy solid disjoint sides]
      _ = surfaceOn xs ys fun p => inBox b p || rest.any (inBox · p) := (surfaceOn_or alone).symm

end Grid

/-! ## One surface -/

variable {a b : Area ℚ} {s t : Set (ℚ × ℚ)} {x y : ℚ} {boxes : List (Box ℚ)}

theorem Tiles.any_iff (h : Tiles boxes s) (p : ℚ × ℚ) : boxes.any (inBox · p) = true ↔ p ∈ s := by
  simp only [← h.points, List.any_eq_true, inBox, decide_eq_true_iff, Set.mem_iUnion, exists_prop]

/-- The surface does not depend on the tiling. -/
theorem HasSurface.unique (hx : HasSurface s x) (hy : HasSurface s y) : x = y := by
  obtain ⟨boxes, tiles, rfl⟩ := hx
  obtain ⟨boxes', tiles', rfl⟩ := hy
  -- The grid has the sides of both tilings.
  let grid : Area ℚ := ⟨boxes ++ boxes'⟩
  have sides : ∀ b ∈ boxes, b ∈ grid.parts := fun b mem => List.mem_append_left boxes' mem
  have sides' : ∀ b ∈ boxes', b ∈ grid.parts := fun b mem => List.mem_append_right boxes mem
  have same : ∀ p, boxes.any (inBox · p) = boxes'.any (inBox · p) := fun p =>
    Bool.eq_iff_iff.mpr ((tiles.any_iff p).trans (tiles'.any_iff p).symm)
  have total := surfaceOn_boxes grid.verticals_ascending grid.horizontals_ascending tiles.solid
    tiles.disjoint fun b mem => ⟨mem_verticals (sides b mem), mem_horizontals (sides b mem)⟩
  have total' := surfaceOn_boxes grid.verticals_ascending grid.horizontals_ascending tiles'.solid
    tiles'.disjoint fun b mem => ⟨mem_verticals (sides' b mem), mem_horizontals (sides' b mem)⟩
  rw [total, total']
  exact congrArg _ (funext same)

theorem hasSurface_empty : HasSurface ∅ 0 := ⟨[], ⟨by simp, List.Pairwise.nil, by simp⟩, rfl⟩

theorem hasSurface_box {b : Box ℚ} (solid : b.isEmpty = false) : HasSurface b.points b.surface :=
  ⟨[b], ⟨by simpa using solid, List.pairwise_singleton _ b, by simp⟩, by simp⟩

theorem HasSurface.union (hx : HasSurface s x) (hy : HasSurface t y) (disjoint : Disjoint s t) :
    HasSurface (s ∪ t) (x + y) := by
  obtain ⟨boxes, tiles, rfl⟩ := hx
  obtain ⟨boxes', tiles', rfl⟩ := hy
  refine ⟨boxes ++ boxes', ⟨?_, ?_, ?_⟩, by rw [List.map_append, List.sum_append]⟩
  · intro b mem
    exact (List.mem_append.mp mem).elim (tiles.solid b) (tiles'.solid b)
  · refine List.pairwise_append.mpr ⟨tiles.disjoint, tiles'.disjoint, fun b mem c mem' => ?_⟩
    have inS : b.points ⊆ s := tiles.points ▸ Set.subset_biUnion_of_mem mem
    have inT : c.points ⊆ t := tiles'.points ▸ Set.subset_biUnion_of_mem mem'
    exact disjoint.mono inS inT
  · ext p
    simp only [Set.mem_union, ← tiles.points, ← tiles'.points, Set.mem_iUnion, exists_prop,
      List.mem_append, or_and_right, exists_or]

theorem HasSurface.nonneg (h : HasSurface s x) : 0 ≤ x := by
  obtain ⟨boxes, tiles, rfl⟩ := h
  refine List.sum_nonneg fun y mem => ?_
  obtain ⟨b, part, rfl⟩ := List.mem_map.mp mem
  obtain ⟨wide, high⟩ := Box.isEmpty_eq_false_iff.mp (tiles.solid b part)
  exact mul_nonneg (sub_nonneg.mpr wide.le) (sub_nonneg.mpr high.le)

/-! ## Surfaces of areas -/

theorem cell_solid {c : Box ℚ} (cell : c ∈ a.cells) : c.isEmpty = false := by
  obtain ⟨g, hg, h, hh, rfl⟩ := mem_cells.mp cell
  have wide := lt_iff_of_mem_windows a.verticals_ascending hg (mem_of_mem_windows hg).2
  have high := lt_iff_of_mem_windows a.horizontals_ascending hh (mem_of_mem_windows hh).2
  exact Box.isEmpty_eq_false_iff.mpr ⟨wide.mpr le_rfl, high.mpr le_rfl⟩

theorem tiles_cells (a : Area ℚ) (test : Box ℚ → Bool) :
    Tiles (a.cells.filter test) (⋃ c ∈ a.cells.filter test, c.points) :=
  ⟨fun _ mem => cell_solid (List.mem_filter.mp mem).1, (cells_disjoint a).filter test, rfl⟩

theorem hasSurface_measure (h : a.Solid) : HasSurface a.points a.measure := by
  rw [measure_of_solid h, points_eq_cells a]
  exact ⟨a.coveredCells, tiles_cells a a.covered, rfl⟩

/-- On a grid with the sides of an area and more, a cell is covered if one of its points is in the
area. -/
theorem covered_iff_mem {grid : Area ℚ} (sub : a.parts ⊆ grid.parts) {c : Box ℚ}
    (cell : c ∈ grid.cells) {p : ℚ × ℚ} (inside : p ∈ c.points) :
    a.covered c = true ↔ p ∈ a.points := by
  rw [covered_iff]
  constructor
  · rintro ⟨b, part, within⟩
    exact ⟨b, part, Box.points_subset within inside⟩
  · rintro ⟨b, part, here⟩
    obtain ⟨d, mem, within, around⟩ := exists_cell (sub part) here
    have same : d = c := by
      by_contra other
      have : Std.Symm fun c d : Box ℚ => Disjoint c.points d.points := ⟨fun _ _ apart => apart.symm⟩
      exact Set.disjoint_left.mp ((cells_disjoint grid).forall mem cell other) around inside
    exact ⟨b, part, same ▸ within⟩

/-- What an area has outside another one has a surface. -/
theorem exists_hasSurface_diff (a b : Area ℚ) : ∃ x, HasSurface (b.points \ a.points) x := by
  let grid : Area ℚ := ⟨a.parts ++ b.parts⟩
  let outside : Box ℚ → Bool := fun c => b.covered c && !a.covered c
  have left : a.parts ⊆ grid.parts := List.subset_append_left _ _
  have right : b.parts ⊆ grid.parts := List.subset_append_right _ _
  have same : ⋃ c ∈ grid.cells.filter outside, c.points = b.points \ a.points := by
    ext p
    simp only [Set.mem_iUnion, exists_prop, List.mem_filter, outside, Bool.and_eq_true,
      Bool.not_eq_true', ← Bool.not_eq_true, Set.mem_sdiff]
    constructor
    · rintro ⟨c, ⟨cell, inB, notA⟩, inside⟩
      exact ⟨(covered_iff_mem right cell inside).mp inB,
        fun inA => notA ((covered_iff_mem left cell inside).mpr inA)⟩
    · rintro ⟨inB, notA⟩
      obtain ⟨part, mem, here⟩ := inB
      obtain ⟨c, cell, _, inside⟩ := exists_cell (right mem) here
      exact ⟨c, ⟨cell, (covered_iff_mem right cell inside).mpr ⟨part, mem, here⟩,
        fun within => notA ((covered_iff_mem left cell inside).mp within)⟩, inside⟩
  exact ⟨_, _, same ▸ tiles_cells grid outside, rfl⟩

end ZoomConfig.Area
