import Mathlib.Algebra.BigOperators.Ring.List
import Mathlib.Order.CompletePartialOrder
import ZoomConfig.Proofs.Geometry.Lengths
import ZoomConfig.Proofs.Geometry.Operations
/-!
The surface of areas.

The sides of an area's boxes cut the plane into cells. A cell lies within a box or has no point of it,
so the cells that some box covers are disjoint and make up the area (`points_eq_cells`), and the
surface of an area is that of its covered cells, overlaps counted once (`surface`). The sweep goes
through the slabs between vertical sides and merges the spans of the boxes over each slab. So it adds
up the covered cells of one slab after the other (`addSlab_eq`), and what it gives is the surface
(`measure_eq_surface`).
-/
namespace ZoomConfig

namespace Box

/-- Width times height. -/
def surface (b : Box ℚ) : ℚ := b.width * b.height

variable {a b : Box ℚ}

theorem disjoint_of_right_le_left (h : a.right ≤ b.left) : Disjoint a.points b.points := by
  refine Set.disjoint_left.mpr fun p inA inB => ?_
  exact absurd (inA.2.1.trans_le h) (not_lt.mpr inB.1)

theorem disjoint_of_top_le_bottom (h : a.top ≤ b.bottom) : Disjoint a.points b.points := by
  refine Set.disjoint_left.mpr fun p inA inB => ?_
  exact absurd (inA.2.2.2.trans_le h) (not_lt.mpr inB.2.2.1)

end Box

namespace Area

/-! ## Cells -/

/-- The distinct left and right sides of an area's boxes, from left to right. -/
def verticals (a : Area ℚ) : List ℚ := linesOf (a.parts.flatMap fun b => [b.left, b.right])

/-- The distinct bottom and top sides of an area's boxes, from bottom to top. -/
def horizontals (a : Area ℚ) : List ℚ := linesOf (a.parts.flatMap fun b => [b.bottom, b.top])

/-- The boxes that consecutive horizontal sides cut out of a slab. -/
def slabCells (a : Area ℚ) (slab : ℚ × ℚ) : List (Box ℚ) :=
  (windows a.horizontals).map fun g => ⟨slab.1, g.1, slab.2, g.2⟩

/-- The boxes that consecutive vertical and consecutive horizontal sides cut out. -/
def cells (a : Area ℚ) : List (Box ℚ) := (windows a.verticals).flatMap a.slabCells

/-- Does a cell lie within some box? -/
def covered (a : Area ℚ) (cell : Box ℚ) : Bool := a.parts.any (·.contains cell)

/-- The cells that lie within some box. -/
def coveredCells (a : Area ℚ) : List (Box ℚ) := a.cells.filter a.covered

/-- The surface of all covered cells. -/
def surface (a : Area ℚ) : ℚ := (a.coveredCells.map Box.surface).sum

variable {a : Area ℚ} {b c : Box ℚ} {p : ℚ × ℚ}

theorem mem_verticals (mem : b ∈ a.parts) : b.left ∈ a.verticals ∧ b.right ∈ a.verticals := by
  simp only [verticals, mem_linesOf, List.mem_flatMap]
  exact ⟨⟨b, mem, by simp⟩, ⟨b, mem, by simp⟩⟩

theorem mem_horizontals (mem : b ∈ a.parts) : b.bottom ∈ a.horizontals ∧ b.top ∈ a.horizontals := by
  simp only [horizontals, mem_linesOf, List.mem_flatMap]
  exact ⟨⟨b, mem, by simp⟩, ⟨b, mem, by simp⟩⟩

theorem verticals_ascending (a : Area ℚ) : a.verticals.Pairwise (· < ·) := linesOf_ascending _

theorem horizontals_ascending (a : Area ℚ) : a.horizontals.Pairwise (· < ·) := linesOf_ascending _

theorem mem_cells : c ∈ a.cells ↔
    ∃ x ∈ windows a.verticals, ∃ y ∈ windows a.horizontals, c = ⟨x.1, y.1, x.2, y.2⟩ := by
  simp only [cells, slabCells, List.mem_flatMap, List.mem_map, eq_comm]

theorem covered_iff : a.covered c = true ↔ ∃ b ∈ a.parts, b.contains c = true := List.any_eq_true

theorem exists_cell (mem : b ∈ a.parts) (inside : p ∈ b.points) :
    ∃ c ∈ a.cells, b.contains c = true ∧ p ∈ c.points := by
  obtain ⟨left, right, bottom, top⟩ := inside
  obtain ⟨fromLeft, toRight⟩ := mem_verticals mem
  obtain ⟨fromBottom, toTop⟩ := mem_horizontals mem
  obtain ⟨x, hx, x₁, x₂⟩ := exists_mem_windows a.verticals_ascending fromLeft toRight left right
  obtain ⟨y, hy, y₁, y₂⟩ := exists_mem_windows a.horizontals_ascending fromBottom toTop bottom top
  refine ⟨⟨x.1, y.1, x.2, y.2⟩, mem_cells.mpr ⟨x, hx, y, hy, rfl⟩, ?_, x₁, x₂, y₁, y₂⟩
  -- The sides of the box do not cut the cell.
  have cutX := fun {z} => lt_iff_of_mem_windows (x := z) a.verticals_ascending hx
  have cutY := fun {z} => lt_iff_of_mem_windows (x := z) a.horizontals_ascending hy
  refine Box.contains_eq_true_iff.mpr ⟨?_, ?_, ?_, ?_⟩
  · exact not_lt.mp fun cut => ((cutX fromLeft).mp cut).not_gt (left.trans_lt x₂)
  · exact (cutX toRight).mp (x₁.trans_lt right)
  · exact not_lt.mp fun cut => ((cutY fromBottom).mp cut).not_gt (bottom.trans_lt y₂)
  · exact (cutY toTop).mp (y₁.trans_lt top)

/-- The covered cells have the points of the area. -/
theorem points_eq_cells (a : Area ℚ) : a.points = ⋃ c ∈ a.coveredCells, c.points := by
  ext p
  simp only [Set.mem_iUnion, coveredCells, List.mem_filter, covered_iff, exists_prop]
  constructor
  · intro given
    obtain ⟨b, mem, inside⟩ := given
    obtain ⟨c, cell, within, here⟩ := exists_cell mem inside
    exact ⟨c, ⟨cell, b, mem, within⟩, here⟩
  · intro given
    obtain ⟨c, ⟨_, b, mem, within⟩, here⟩ := given
    exact ⟨b, mem, Box.points_subset within here⟩

theorem cells_disjoint (a : Area ℚ) : a.cells.Pairwise fun c d => Disjoint c.points d.points := by
  refine List.pairwise_flatMap.mpr ⟨fun x _ => ?_, ?_⟩
  · refine List.pairwise_map.mpr ((windows_pairwise a.horizontals_ascending).imp ?_)
    exact fun above => Box.disjoint_of_top_le_bottom above
  · refine (windows_pairwise a.verticals_ascending).imp fun {x x'} beside => ?_
    intro c hc d hd
    obtain ⟨y, _, rfl⟩ := List.mem_map.mp hc
    obtain ⟨y', _, rfl⟩ := List.mem_map.mp hd
    exact Box.disjoint_of_right_le_left beside

/-! ## The sweep -/

/-- The spans over a slab are those of the boxes that reach over all of it. -/
theorem mem_slabSpans {boxes : List (Box ℚ)} {x₀ x₁ : ℚ} {s : ℚ × ℚ} :
    s ∈ slabSpans boxes x₀ x₁ ↔
      ∃ b ∈ boxes, (b.left ≤ x₀ ∧ x₁ ≤ b.right) ∧ (b.bottom, b.top) = s := by
  simp only [slabSpans, List.mem_mergeSort, List.mem_map, List.mem_filter, Bool.and_eq_true,
    decide_eq_true_eq, and_assoc]

theorem slabSpans_sorted (boxes : List (Box ℚ)) (x₀ x₁ : ℚ) :
    (slabSpans boxes x₀ x₁).Pairwise fun s t => s.1 ≤ t.1 := by
  refine (List.pairwise_mergeSort ?_ ?_ _).imp of_decide_eq_true
  · intro s t u first second
    exact decide_eq_true ((of_decide_eq_true first).trans (of_decide_eq_true second))
  · intro s t
    rw [Bool.or_eq_true, decide_eq_true_iff, decide_eq_true_iff]
    exact le_total s.1 t.1

/-- A cell of a slab is covered exactly if its lower side lies in a span over the slab. -/
theorem covered_slabCell {slab g : ℚ × ℚ} (mem : g ∈ windows a.horizontals) :
    a.covered ⟨slab.1, g.1, slab.2, g.2⟩ = inSpans (slabSpans a.parts slab.1 slab.2) g.1 := by
  rw [Bool.eq_iff_iff, covered_iff, inSpans_iff]
  constructor
  · intro given
    obtain ⟨b, part, within⟩ := given
    obtain ⟨left, right, bottom, top⟩ := Box.contains_eq_true_iff.mp within
    refine ⟨_, mem_slabSpans.mpr ⟨b, part, ⟨left, right⟩, rfl⟩, bottom, ?_⟩
    exact (lt_iff_of_mem_windows a.horizontals_ascending mem (mem_horizontals part).2).mpr top
  · intro given
    obtain ⟨_, span, bottom, below⟩ := given
    obtain ⟨b, part, ⟨left, right⟩, rfl⟩ := mem_slabSpans.mp span
    refine ⟨b, part, Box.contains_eq_true_iff.mpr ⟨left, right, bottom, ?_⟩⟩
    exact (lt_iff_of_mem_windows a.horizontals_ascending mem (mem_horizontals part).2).mp below

/-- The covered cells of a slab are as long together as the spans over it, and as wide as the slab. -/
theorem slabCells_surface (a : Area ℚ) (slab : ℚ × ℚ) :
    (((a.slabCells slab).filter a.covered).map Box.surface).sum =
      lengthOf a.horizontals (inSpans (slabSpans a.parts slab.1 slab.2)) * (slab.2 - slab.1) := by
  have tests : (windows a.horizontals).filter
      (a.covered ∘ fun g => ⟨slab.1, g.1, slab.2, g.2⟩) =
        (windows a.horizontals).filter fun g => inSpans (slabSpans a.parts slab.1 slab.2) g.1 :=
    List.filter_congr fun g mem => covered_slabCell mem
  rw [slabCells, List.filter_map, List.map_map, tests, lengthOf_eq_filter, ← List.sum_map_mul_right]
  exact congrArg List.sum (List.map_congr_left fun g _ => mul_comm _ _)

/-- A slab adds its covered cells. -/
theorem addSlab_eq (h : a.Solid) (total : ℚ) (slab : ℚ × ℚ) :
    addSlab a.parts total slab =
      total + (((a.slabCells slab).filter a.covered).map Box.surface).sum := by
  have sorted := slabSpans_sorted a.parts slab.1 slab.2
  have ends : ∀ s ∈ slabSpans a.parts slab.1 slab.2,
      s.1 ∈ a.horizontals ∧ s.2 ∈ a.horizontals ∧ s.1 ≤ s.2 := by
    intro s span
    obtain ⟨b, part, _, rfl⟩ := mem_slabSpans.mp span
    obtain ⟨bottom, top⟩ := mem_horizontals part
    exact ⟨bottom, top, (Box.isEmpty_eq_false_iff.mp (h b part)).2.le⟩
  rw [slabCells_surface]
  unfold addSlab
  cases spans : slabSpans a.parts slab.1 slab.2 with
  | nil => rw [lengthOf_none fun _ _ => rfl, zero_mul, add_zero]
  | cons s rest =>
    rw [spans] at sorted ends
    obtain ⟨least, sorted⟩ := List.pairwise_cons.mp sorted
    obtain ⟨⟨bottom, top, order⟩, ends⟩ := List.forall_mem_cons.mp ends
    have merged := coveredFrom_eq a.horizontals_ascending sorted ends bottom top order least 0
    rw [zero_add] at merged
    exact congrArg (fun length => total + length * (slab.2 - slab.1)) merged

theorem foldl_addSlab_eq (h : a.Solid) (total : ℚ) (slabs : List (ℚ × ℚ)) :
    slabs.foldl (addSlab a.parts) total =
      total + (((slabs.flatMap a.slabCells).filter a.covered).map Box.surface).sum := by
  induction slabs generalizing total with
  | nil => simp
  | cons slab rest ih =>
    rw [List.foldl_cons, ih, addSlab_eq h, List.flatMap_cons, List.filter_append, List.map_append,
      List.sum_append, add_assoc]

/-- Dropping repeated neighbours leaves ascending numbers distinct. -/
theorem dropEqual_spec {x : ℚ} {rest : List ℚ} (sorted : (x :: rest).Pairwise (· ≤ ·)) :
    (x :: dropEqual x rest).Pairwise (· < ·) ∧ ∀ y, y ∈ x :: dropEqual x rest ↔ y ∈ x :: rest := by
  induction rest generalizing x with
  | nil => exact ⟨List.pairwise_singleton _ x, fun y => Iff.rfl⟩
  | cons z rest ih =>
    obtain ⟨least, further⟩ := List.pairwise_cons.mp sorted
    unfold dropEqual
    split
    · next same =>
      obtain rfl : x = z := eq_of_beq same
      obtain ⟨ascending, members⟩ := ih further
      exact ⟨ascending, fun y => by rw [members, List.mem_cons, List.mem_cons, List.mem_cons]; tauto⟩
    · next other =>
      obtain ⟨ascending, members⟩ := ih further
      have first : x < z :=
        lt_of_le_of_ne (least z List.mem_cons_self) fun same => other (beq_iff_eq.mpr same)
      refine ⟨List.pairwise_cons.mpr ⟨fun y mem => ?_, ascending⟩, fun y => ?_⟩
      · rcases List.mem_cons.mp mem with rfl | mem
        · exact first
        · exact first.trans ((List.pairwise_cons.mp ascending).1 y mem)
      · rw [List.mem_cons, members, List.mem_cons (a := y) (b := x)]

theorem dropRepeats_sides (a : Area ℚ) :
    dropRepeats ((a.parts.flatMap fun b => [b.left, b.right]).mergeSort Coordinate.sortsBefore) =
      a.verticals := by
  have sorted : ((a.parts.flatMap fun b => [b.left, b.right]).mergeSort
      Coordinate.sortsBefore).Pairwise (· ≤ ·) := List.pairwise_mergeSort' (· ≤ ·) _
  have members : ∀ y, y ∈ (a.parts.flatMap fun b => [b.left, b.right]).mergeSort
      Coordinate.sortsBefore ↔ y ∈ a.verticals :=
    fun y => List.mem_mergeSort.trans mem_linesOf.symm
  revert sorted members
  generalize (a.parts.flatMap fun b => [b.left, b.right]).mergeSort Coordinate.sortsBefore = sides
  intro sorted members
  cases sides with
  | nil =>
    refine (List.eq_nil_iff_forall_not_mem.mpr fun y mem => ?_).symm
    exact absurd ((members y).mpr mem) (List.not_mem_nil)
  | cons x rest =>
    obtain ⟨ascending, same⟩ := dropEqual_spec sorted
    exact ascending.eq_of_mem_iff a.verticals_ascending fun y => (same y).trans (members y)

/-- The sweep gives the surface of the covered cells. -/
theorem measure_of_solid (h : a.Solid) : a.measure = a.surface := by
  unfold measure
  dsimp only
  rw [dropRepeats_sides, foldl_addSlab_eq h]
  exact zero_add _

/-- The measure of an area that is computed is its surface: the sum of the surfaces of the cells
between consecutive sides that some box covers. These cells are disjoint and have the points of the
area, so every overlap counts once. -/
theorem measure_eq_surface (h : Computed a) :
    a.measure = a.surface ∧ a.points = ⋃ c ∈ a.coveredCells, c.points ∧
      a.coveredCells.Pairwise fun c d => Disjoint c.points d.points :=
  ⟨measure_of_solid h.solid, points_eq_cells a, (cells_disjoint a).filter a.covered⟩

/-- Two boxes that overlap, and one beside them. -/
def threeBoxes : Area ℚ :=
  .unionAll [.ofBox ⟨0, 0, 10, 10⟩, .ofBox ⟨5, 5, 15, 15⟩, .ofBox ⟨20, 0, 25, 5⟩]

/-- The overlap of two of three boxes counts once, also after a cut through all of them. -/
theorem measure_eq_surface_overlapping :
    (Computed threeBoxes ∧ threeBoxes.measure = 200) ∧
      Computed (threeBoxes.clip ⟨0, 0, 22, 12⟩) ∧
        (threeBoxes.clip ⟨0, 0, 22, 12⟩).measure = 155 := by
  have whole : Computed threeBoxes := .unionAll _
  have part : Computed (threeBoxes.clip ⟨0, 0, 22, 12⟩) := .clip _ _
  refine ⟨⟨whole, ?_⟩, part, ?_⟩
  · rw [(measure_eq_surface whole).1]
    decide +kernel
  · rw [(measure_eq_surface part).1]
    decide +kernel

end Area

end ZoomConfig
