import ZoomConfig.Proofs.Geometry.Points
/-!
What the operations on areas mean.

Boxes may be empty or inverted and areas may come with any parts: two boxes share the points of both,
a union has the points of all its areas, a cut those that lie in the box, and what is computed is
empty exactly if it has no point (`operations_points`).
-/
namespace ZoomConfig.Area

/-- Areas that the operations give for any boxes and for areas of any parts. -/
inductive Computed {α : Type} [Coordinate α] : Area α → Prop where
  | empty : Computed empty
  | ofBox (b : Box α) : Computed (ofBox b)
  | union (a b : Area α) : Computed (a.union b)
  | unionAll (areas : List (Area α)) : Computed (.unionAll areas)
  | clip (a : Area α) (b : Box α) : Computed (a.clip b)

theorem Computed.solid {a : Area ℚ} (h : Computed a) : a.Solid := by
  cases h with
  | empty => exact solid_pushAll []
  | ofBox b => exact solid_ofBox b
  | union a b => exact solid_unionAll [a, b]
  | unionAll areas => exact solid_unionAll areas
  | clip a b => exact solid_clip a b

theorem isEmpty_iff {a : Area ℚ} (h : a.Solid) : a.isEmpty = true ↔ a.points = ∅ := by
  rw [← envelope_eq_none_iff h, isEmpty, envelope]
  cases a.parts <;> simp

theorem points_intersection? (a b : Box ℚ) :
    (⋃ c ∈ a.intersection? b, c.points) = a.points ∩ b.points := by
  ext p
  simp only [Set.mem_iUnion, Option.mem_def, exists_prop, Set.mem_inter_iff]
  exact Box.mem_intersection?

/-- Over exact numbers, the shared part of two boxes has the points of both, none if there is no such
part. A union of areas has the points of all of them, and the part of an area within a box has those
points of the area that lie in the box, whatever boxes the areas are made of. An area that is computed
is empty, and has no envelope, exactly if it has no point. -/
theorem operations_points :
    (∀ a b : Box ℚ, (⋃ c ∈ a.intersection? b, c.points) = a.points ∩ b.points) ∧
    (∀ b : Box ℚ, (ofBox b).points = b.points) ∧
    (∀ areas : List (Area ℚ), (unionAll areas).points = ⋃ a ∈ areas, a.points) ∧
    (∀ (a : Area ℚ) (b : Box ℚ), (a.clip b).points = a.points ∩ b.points) ∧
    ∀ a : Area ℚ, Computed a →
      (a.isEmpty = true ↔ a.points = ∅) ∧ (a.envelope = none ↔ a.points = ∅) :=
  ⟨points_intersection?, points_ofBox, points_unionAll, points_clip,
    fun _ computed => ⟨isEmpty_iff computed.solid, envelope_eq_none_iff computed.solid⟩⟩

/-- A part that is inverted. -/
def invertedPart : Area ℚ := ⟨[⟨0, 0, 2, 2⟩, ⟨5, 5, 4, 4⟩]⟩

/-- A square is cut to an inverted box. The two overlap, and yet no point is left. -/
theorem operations_points_inverted :
    (⟨0, 0, 2, 2⟩ : Box ℚ).intersects ⟨3 / 2, 3 / 2, 1, 1⟩ = true ∧
    Computed (invertedPart.clip ⟨3 / 2, 3 / 2, 1, 1⟩) ∧
    (invertedPart.clip ⟨3 / 2, 3 / 2, 1, 1⟩).points = ∅ := by
  have computed : Computed (invertedPart.clip ⟨3 / 2, 3 / 2, 1, 1⟩) := .clip _ _
  refine ⟨by decide +kernel, computed, ?_⟩
  exact (operations_points.2.2.2.2 _ computed).1.mp (by decide +kernel)

end ZoomConfig.Area
