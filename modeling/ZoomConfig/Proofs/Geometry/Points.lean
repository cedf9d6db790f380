import Mathlib.Algebra.Order.Field.Basic
import Mathlib.Algebra.Order.Field.Rat
import Mathlib.Data.Set.Lattice
import Mathlib.Tactic.Linarith
import ZoomConfig.Geometry.Area
/-!
The points of boxes and areas.

Over exact numbers a box stands for a set of points, its left and bottom sides with it and its right
and top sides without, and an area for the points of all its boxes. Adding a box adds its points,
whatever is dropped or absorbed (`mem_push`), so a union has the points of all its areas
(`points_unionAll`) and a cut those that lie in the box too (`points_clip`). Areas that are computed
have no empty box (`Solid`). So an envelope is missing only where there is no point, and else it is
the tightest box around the points (`envelope_tightest`).
-/
namespace ZoomConfig

/-! ## Exact coordinates -/

/-- The number that the parts of a double make. -/
def Decimal.Binary.toRat (b : Decimal.Binary) : ℚ :=
  (if b.negative then -1 else 1) * b.mantissa * 2 ^ b.exponent

/-- Exact numbers. Every finite double is one of them; no bounds have a side that is not finite. -/
instance Coordinate.exact : Coordinate ℚ where
  decLt := inferInstance
  decLe := inferInstance
  zero := 0
  one := 1
  smaller a b := min a b
  larger a b := max a b
  abs x := |x|
  sortsBefore a b := a ≤ b
  same a b := a == b
  tolerance := 1 / 1000000000
  ofFloat x :=
    match Decimal.Double.ofFloat x with
    | .finite b => b.toRat
    | _ => 0

example : (Coordinate.ofFloat (-0.5) : ℚ) = -1 / 2 := by decide +kernel

namespace Box

variable {a b c : Box ℚ} {p : ℚ × ℚ}

/-! ## Boxes -/

/-- The points from the left side on and before the right one, and likewise from bottom to top. -/
def points (b : Box ℚ) : Set (ℚ × ℚ) :=
  {p | b.left ≤ p.1 ∧ p.1 < b.right ∧ b.bottom ≤ p.2 ∧ p.2 < b.top}

instance decidableMemPoints (b : Box ℚ) (p : ℚ × ℚ) : Decidable (p ∈ b.points) :=
  inferInstanceAs (Decidable
    (b.left ≤ p.1 ∧ p.1 < b.right ∧ b.bottom ≤ p.2 ∧ p.2 < b.top))

theorem isEmpty_eq_false_iff : b.isEmpty = false ↔ b.left < b.right ∧ b.bottom < b.top := by
  simp [isEmpty, width, height, Coordinate.zero]

theorem contains_eq_true_iff {α : Type} [Coordinate α] {a b : Box α} : a.contains b = true ↔
    a.left ≤ b.left ∧ b.right ≤ a.right ∧ a.bottom ≤ b.bottom ∧ b.top ≤ a.top := by
  simp [contains, and_assoc]

theorem contains_self (b : Box ℚ) : b.contains b = true :=
  contains_eq_true_iff.mpr ⟨le_refl _, le_refl _, le_refl _, le_refl _⟩

theorem isEmpty_iff : b.isEmpty = true ↔ b.points = ∅ := by
  rw [← Bool.not_eq_false, isEmpty_eq_false_iff, Set.eq_empty_iff_forall_notMem]
  constructor
  · intro none p given
    obtain ⟨left, right, bottom, top⟩ := given
    exact none ⟨lt_of_le_of_lt left right, lt_of_le_of_lt bottom top⟩
  · intro none some
    exact none (b.left, b.bottom) ⟨le_refl _, some.1, le_refl _, some.2⟩

theorem points_subset (h : a.contains b = true) : b.points ⊆ a.points := by
  obtain ⟨left, right, bottom, top⟩ := contains_eq_true_iff.mp h
  intro p given
  obtain ⟨pleft, pright, pbottom, ptop⟩ := given
  exact ⟨by linarith, by linarith, by linarith, by linarith⟩

theorem contains_iff_subset (some : b.isEmpty = false) :
    a.contains b = true ↔ b.points ⊆ a.points := by
  refine ⟨points_subset, fun sub => ?_⟩
  obtain ⟨wide, high⟩ := isEmpty_eq_false_iff.mp some
  obtain ⟨left, -, bottom, -⟩ := sub (show (b.left, b.bottom) ∈ b.points from
    ⟨le_refl _, wide, le_refl _, high⟩)
  refine contains_eq_true_iff.mpr ⟨left, ?_, bottom, ?_⟩
  -- There are points as close to the right and the top side as one likes.
  · by_contra beyond
    obtain ⟨x, above, below⟩ := exists_between (max_lt wide (not_le.mp beyond))
    have inside := sub (show (x, b.bottom) ∈ b.points from
      ⟨(le_max_left _ _).trans above.le, below, le_refl _, high⟩)
    exact absurd inside.2.1 (not_lt.mpr ((le_max_right _ _).trans above.le))
  · by_contra beyond
    obtain ⟨y, above, below⟩ := exists_between (max_lt high (not_le.mp beyond))
    have inside := sub (show (b.left, y) ∈ b.points from
      ⟨le_refl _, wide, (le_max_left _ _).trans above.le, below⟩)
    exact absurd inside.2.2.2 (not_lt.mpr ((le_max_right _ _).trans above.le))

theorem mem_intersection? :
    (∃ c, a.intersection? b = some c ∧ p ∈ c.points) ↔ p ∈ a.points ∧ p ∈ b.points := by
  unfold intersection? intersects
  constructor
  · intro given
    obtain ⟨c, shared, left, right, bottom, top⟩ := given
    split at shared
    · cases shared
      obtain ⟨aleft, bleft⟩ := max_le_iff.mp left
      obtain ⟨aright, bright⟩ := lt_min_iff.mp right
      obtain ⟨abottom, bbottom⟩ := max_le_iff.mp bottom
      obtain ⟨atop, btop⟩ := lt_min_iff.mp top
      exact ⟨⟨aleft, aright, abottom, atop⟩, ⟨bleft, bright, bbottom, btop⟩⟩
    · cases shared
  · intro given
    obtain ⟨⟨aleft, aright, abottom, atop⟩, ⟨bleft, bright, bbottom, btop⟩⟩ := given
    refine ⟨_, if_pos ?_, max_le aleft bleft, lt_min aright bright, max_le abottom bbottom,
      lt_min atop btop⟩
    simp only [Bool.and_eq_true, decide_eq_true_eq]
    exact ⟨⟨⟨by linarith, by linarith⟩, by linarith⟩, by linarith⟩

theorem contains_hull : c.contains (a.hull b) = true ↔ c.contains a = true ∧ c.contains b = true := by
  simp only [contains_eq_true_iff, hull, Coordinate.smaller, Coordinate.larger, le_min_iff,
    max_le_iff]
  tauto

/-- The smallest box around a set of points. -/
def Tightest (b : Box ℚ) (s : Set (ℚ × ℚ)) : Prop :=
  s ⊆ b.points ∧ ∀ c : Box ℚ, s ⊆ c.points → c.contains b = true

/-- More points that the box holds already make no difference. -/
theorem Tightest.of_subset {s t : Set (ℚ × ℚ)} (h : b.Tightest s) (sub : s ⊆ t)
    (within : t ⊆ b.points) : b.Tightest t :=
  ⟨within, fun c around => h.2 c (sub.trans around)⟩

end Box

namespace Area

variable {a : Area ℚ} {b c : Box ℚ} {p : ℚ × ℚ}

/-! ## Areas -/

/-- The points of all boxes. -/
def points (a : Area ℚ) : Set (ℚ × ℚ) := {p | ∃ b ∈ a.parts, p ∈ b.points}

theorem mem_points : p ∈ a.points ↔ ∃ b ∈ a.parts, p ∈ b.points := Iff.rfl

/-- No box is empty. -/
def Solid (a : Area ℚ) : Prop := ∀ b ∈ a.parts, b.isEmpty = false

/-- Adding a box adds its points. -/
theorem mem_push (a : Area ℚ) (b : Box ℚ) : p ∈ (a.push b).points ↔ p ∈ a.points ∨ p ∈ b.points := by
  unfold push
  split
  · next dropped =>
    -- A box that is dropped has no points, or none that are new.
    refine ⟨.inl, fun given => given.elim id fun inside => ?_⟩
    rcases Bool.or_eq_true_iff.mp dropped with none | covered
    · rw [Box.isEmpty_iff.mp none] at inside
      exact inside.elim
    · obtain ⟨part, mem, around⟩ := List.any_eq_true.mp covered
      exact ⟨part, mem, Box.points_subset around inside⟩
  · constructor
    · intro given
      obtain ⟨part, mem, inside⟩ := given
      rcases List.mem_append.mp mem with mem | mem
      · exact .inl ⟨part, (List.mem_filter.mp mem).1, inside⟩
      · rw [List.mem_singleton.mp mem] at inside
        exact .inr inside
    · intro given
      rcases given with ⟨part, mem, inside⟩ | inside
      · by_cases absorbed : b.contains part = true
        · exact ⟨b, by simp, Box.points_subset absorbed inside⟩
        · exact ⟨part, by simp [mem, absorbed], inside⟩
      · exact ⟨b, by simp, inside⟩

theorem mem_pushAll (a : Area ℚ) (boxes : List (Box ℚ)) :
    p ∈ (a.pushAll boxes).points ↔ p ∈ a.points ∨ ∃ b ∈ boxes, p ∈ b.points := by
  unfold pushAll
  induction boxes generalizing a with
  | nil => simp
  | cons b rest ih => rw [List.foldl_cons, ih, mem_push, or_assoc]; simp

theorem points_empty : (empty : Area ℚ).points = ∅ := by
  ext p
  simp [mem_points, empty]

theorem points_ofBox (b : Box ℚ) : (ofBox b).points = b.points := by
  ext p
  rw [ofBox, mem_push, points_empty]
  simp

/-- A union has the points of all its areas. -/
theorem points_unionAll (areas : List (Area ℚ)) :
    (unionAll areas).points = ⋃ a ∈ areas, a.points := by
  ext p
  rw [unionAll, mem_pushAll, points_empty]
  simp only [List.mem_flatMap, Set.mem_empty_iff_false, false_or, Set.mem_iUnion, mem_points]
  constructor
  · intro given
    obtain ⟨b, ⟨a, mem, part⟩, inside⟩ := given
    exact ⟨a, mem, b, part, inside⟩
  · intro given
    obtain ⟨a, mem, b, part, inside⟩ := given
    exact ⟨b, ⟨a, mem, part⟩, inside⟩

/-- A cut has the points that lie in the box. -/
theorem points_clip (a : Area ℚ) (b : Box ℚ) : (a.clip b).points = a.points ∩ b.points := by
  ext p
  rw [clip, mem_pushAll, points_empty]
  simp only [List.mem_filterMap, Set.mem_empty_iff_false, false_or, Set.mem_inter_iff]
  constructor
  · intro given
    obtain ⟨c, ⟨part, mem, shared⟩, inside⟩ := given
    obtain ⟨inPart, inBox⟩ := Box.mem_intersection?.mp ⟨c, shared, inside⟩
    exact ⟨⟨part, mem, inPart⟩, inBox⟩
  · intro given
    obtain ⟨⟨part, mem, inPart⟩, inBox⟩ := given
    obtain ⟨c, shared, inside⟩ := Box.mem_intersection?.mpr ⟨inPart, inBox⟩
    exact ⟨c, ⟨part, mem, shared⟩, inside⟩

/-! ## Areas without empty boxes -/

theorem Solid.push (h : a.Solid) (b : Box ℚ) : (a.push b).Solid := by
  unfold Area.push
  split
  · exact h
  · next kept =>
    have some : b.isEmpty = false := by
      cases none : b.isEmpty with
      | false => rfl
      | true => exact absurd (by rw [none]; rfl) kept
    intro part mem
    rcases List.mem_append.mp mem with mem | mem
    · exact h part (List.mem_filter.mp mem).1
    · rw [List.mem_singleton.mp mem]
      exact some

theorem solid_pushAll (boxes : List (Box ℚ)) : (empty.pushAll boxes).Solid := by
  suffices grow : ∀ a : Area ℚ, a.Solid → (a.pushAll boxes).Solid from
    grow empty fun _ mem => nomatch mem
  unfold pushAll
  induction boxes with
  | nil => exact fun _ h => h
  | cons b rest ih => exact fun a h => ih (a.push b) (h.push b)

theorem solid_ofBox (b : Box ℚ) : (ofBox b).Solid := solid_pushAll [b]

theorem solid_unionAll (areas : List (Area ℚ)) : (unionAll areas).Solid := solid_pushAll _

theorem solid_clip (a : Area ℚ) (b : Box ℚ) : (a.clip b).Solid := solid_pushAll _

/-! ## Envelopes -/

theorem contains_envelope (found : a.envelope = some b) :
    c.contains b = true ↔ ∀ part ∈ a.parts, c.contains part = true := by
  unfold envelope at found
  cases parts : a.parts with
  | nil => simp [parts] at found
  | cons first rest =>
    simp only [parts, Option.some.injEq] at found
    subst found
    clear parts
    induction rest generalizing first with
    | nil => simp
    | cons next rest ih => rw [List.foldl_cons, ih]; simp [Box.contains_hull, and_assoc]

theorem envelope_eq_none_iff (h : a.Solid) : a.envelope = none ↔ a.points = ∅ := by
  unfold envelope
  cases parts : a.parts with
  | nil => simp [Set.eq_empty_iff_forall_notMem, mem_points, parts]
  | cons first rest =>
    have some := h first (by simp [parts])
    constructor
    · intro missing
      cases missing
    · intro none
      rw [← Bool.not_eq_true, Box.isEmpty_iff] at some
      refine absurd (Set.subset_empty_iff.mp ?_) some
      rw [← none]
      exact fun p inside => ⟨first, by simp [parts], inside⟩

/-- The envelope is the smallest box around the points. -/
theorem envelope_tightest (h : a.Solid) (found : a.envelope = some b) : b.Tightest a.points := by
  constructor
  · intro p given
    obtain ⟨part, mem, inside⟩ := given
    exact Box.points_subset ((contains_envelope found).mp b.contains_self part mem) inside
  · intro c around
    refine (contains_envelope found).mpr fun part mem => ?_
    exact (Box.contains_iff_subset (h part mem)).mpr fun p inside => around ⟨part, mem, inside⟩

end Area

end ZoomConfig
