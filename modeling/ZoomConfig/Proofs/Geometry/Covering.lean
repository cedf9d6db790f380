import ZoomConfig.Proofs.Geometry.Tilings
/-!
When one area covers another.

The test compares two sweeps, one over an area and one over its union with another area. The union is
the area and what the other one has outside it, so the sweeps differ by the surface of that rest
(`measure_union`), and the test asks whether the rest is slight (`covers_iff_slight`). Surfaces are
those of sets of points, so it makes no difference how the areas are split into boxes
(`covers_decides`).
-/
namespace ZoomConfig.Area

/-- A rest is at most a billionth of the whole, or of one if that is more. -/
def Slight (rest whole : ℚ) : Prop := rest ≤ 1 / 1000000000 * max 1 whole

variable {a b : Area ℚ} {rest missing whole : ℚ}

theorem points_union (a b : Area ℚ) : (a.union b).points = a.points ∪ b.points := by
  rw [union, points_unionAll]
  simp

/-- A union has the surface of one area and of what the other one has outside it. -/
theorem measure_union (h : a.Solid) (outside : HasSurface (b.points \ a.points) rest) :
    (a.union b).measure = a.measure + rest := by
  have parts : HasSurface (a.points ∪ b.points \ a.points) (a.measure + rest) :=
    (hasSurface_measure h).union outside Set.disjoint_sdiff_right
  have whole : HasSurface (a.points ∪ b.points) (a.union b).measure := by
    rw [← points_union]
    exact hasSurface_measure (solid_unionAll _)
  rw [Set.union_sdiff_self] at parts
  exact whole.unique parts

/-- An area covers another exactly if what the other one has outside it is slight. -/
theorem covers_iff_slight (h : a.Solid) (outside : HasSurface (b.points \ a.points) rest)
    (both : HasSurface (a.points ∪ b.points) whole) : a.covers b = true ↔ Slight rest whole := by
  have merged : (a.union b).measure = whole := by
    rw [← points_union] at both
    exact (hasSurface_measure (solid_unionAll _)).unique both
  have difference : |(a.union b).measure - a.measure| = rest := by
    rw [measure_union h outside, add_sub_cancel_left, abs_of_nonneg outside.nonneg]
  calc a.covers b = true
      ↔ |(a.union b).measure - a.measure| ≤ 1 / 1000000000 * max (a.union b).measure 1 :=
        decide_eq_true_iff
    _ ↔ Slight rest whole := by rw [difference, merged, max_comm]; rfl

/-- Two areas have the same extent exactly if what each has outside the other is slight. -/
theorem sameExtent_iff_slight (ha : a.Solid) (hb : b.Solid)
    (outside : HasSurface (b.points \ a.points) rest)
    (uncovered : HasSurface (a.points \ b.points) missing)
    (both : HasSurface (a.points ∪ b.points) whole) :
    a.sameExtent b = true ↔ Slight rest whole ∧ Slight missing whole := by
  rw [sameExtent, Bool.and_eq_true, covers_iff_slight ha outside both,
    covers_iff_slight hb uncovered (Set.union_comm _ _ ▸ both)]

theorem exists_hasSurface_union (a b : Area ℚ) : ∃ x, HasSurface (a.points ∪ b.points) x := by
  rw [← points_union]
  exact ⟨_, hasSurface_measure (solid_unionAll _)⟩

theorem covers_of_subset (h : a.Solid) (sub : b.points ⊆ a.points) : a.covers b = true := by
  obtain ⟨whole, both⟩ := exists_hasSurface_union a b
  have outside : HasSurface (b.points \ a.points) 0 := by
    rw [Set.sdiff_eq_empty.mpr sub]
    exact hasSurface_empty
  refine (covers_iff_slight h outside both).mpr ?_
  have least : (1 : ℚ) ≤ max 1 whole := le_max_left 1 whole
  show (0 : ℚ) ≤ 1 / 1000000000 * max 1 whole
  positivity

theorem covers_congr {a' b' : Area ℚ} (h : a.Solid) (h' : a'.Solid) (first : a'.points = a.points)
    (second : b'.points = b.points) : a'.covers b' = a.covers b := by
  obtain ⟨rest, outside⟩ := exists_hasSurface_diff a b
  obtain ⟨whole, both⟩ := exists_hasSurface_union a b
  have again : a'.covers b' = true ↔ Slight rest whole := by
    apply covers_iff_slight h'
    · rw [first, second]
      exact outside
    · rw [first, second]
      exact both
  exact Bool.eq_iff_iff.mpr (again.trans (covers_iff_slight h outside both).symm)

/-- Over exact numbers, what computed areas have outside one another and together has one surface,
however it is tiled. One covers the other exactly if the surface of what the other has outside it is
at most a billionth of the surface of both, or of one if that is more; so it does if no point is
outside. They have the same extent exactly if that holds both ways. How areas are split into boxes
makes no difference. -/
theorem covers_decides (ha : Computed a) (hb : Computed b) :
    (∃! x, HasSurface (b.points \ a.points) x) ∧ (∃! x, HasSurface (a.points \ b.points) x) ∧
    (∃! x, HasSurface (a.points ∪ b.points) x) ∧
    (∀ rest missing whole, HasSurface (b.points \ a.points) rest →
      HasSurface (a.points \ b.points) missing → HasSurface (a.points ∪ b.points) whole →
      (a.covers b = true ↔ Slight rest whole) ∧
      (a.sameExtent b = true ↔ Slight rest whole ∧ Slight missing whole)) ∧
    (b.points ⊆ a.points → a.covers b = true) ∧
    ∀ a' b' : Area ℚ, Computed a' → Computed b' → a'.points = a.points → b'.points = b.points →
      a'.covers b' = a.covers b ∧ a'.sameExtent b' = a.sameExtent b := by
  have one : ∀ {s : Set (ℚ × ℚ)}, (∃ x, HasSurface s x) → ∃! x, HasSurface s x :=
    fun ⟨x, h⟩ => ⟨x, h, fun _ other => other.unique h⟩
  refine ⟨one (exists_hasSurface_diff a b), one (exists_hasSurface_diff b a),
    one (exists_hasSurface_union a b), fun rest missing whole outside uncovered both => ?_,
    covers_of_subset ha.solid, fun a' b' ha' hb' first second => ?_⟩
  · exact ⟨covers_iff_slight ha.solid outside both,
      sameExtent_iff_slight ha.solid hb.solid outside uncovered both⟩
  · have there := covers_congr ha.solid ha'.solid first second
    have back := covers_congr hb.solid hb'.solid second first
    exact ⟨there, by rw [sameExtent, sameExtent, there, back]⟩

/-! A unit square, whole and as two halves, and one that is wider by a billionth. -/

def unitSquare : Area ℚ := .ofBox ⟨0, 0, 1, 1⟩

def unitHalves : Area ℚ := .unionAll [.ofBox ⟨0, 0, 1 / 2, 1⟩, .ofBox ⟨1 / 2, 0, 1, 1⟩]

def wideSquare : Area ℚ := .ofBox ⟨0, 0, 1 + 1 / 1000000000, 1⟩

theorem points_unitHalves : unitHalves.points = unitSquare.points := by
  rw [unitHalves, unitSquare, points_unionAll, points_ofBox]
  ext ⟨x, y⟩
  simp only [List.mem_cons, List.not_mem_nil, or_false, Set.mem_iUnion, exists_prop,
    exists_eq_or_imp, exists_eq_left, points_ofBox, Box.points, Set.mem_ofPred_eq]
  constructor
  · rintro (⟨left, right, vertical⟩ | ⟨left, right, vertical⟩)
    · exact ⟨left, by linarith, vertical⟩
    · exact ⟨by linarith, right, vertical⟩
  · rintro ⟨left, right, vertical⟩
    rcases lt_or_ge x (1 / 2) with before | after
    · exact .inl ⟨left, before, vertical⟩
    · exact .inr ⟨after, right, vertical⟩

theorem points_wideSquare :
    wideSquare.points = unitSquare.points ∪ (⟨1, 0, 1 + 1 / 1000000000, 1⟩ : Box ℚ).points ∧
      Disjoint unitSquare.points (⟨1, 0, 1 + 1 / 1000000000, 1⟩ : Box ℚ).points := by
  rw [wideSquare, unitSquare, points_ofBox, points_ofBox]
  refine ⟨?_, Box.disjoint_of_right_le_left le_rfl⟩
  ext ⟨x, y⟩
  simp only [Box.points, Set.mem_union, Set.mem_ofPred_eq]
  constructor
  · rintro ⟨left, right, vertical⟩
    rcases lt_or_ge x 1 with before | after
    · exact .inl ⟨left, before, vertical⟩
    · exact .inr ⟨after, right, vertical⟩
  · rintro (⟨left, right, vertical⟩ | ⟨left, right, vertical⟩)
    · exact ⟨left, by linarith, vertical⟩
    · exact ⟨by linarith, right, vertical⟩

/-- A strip of a billionth beside a unit square is just slight enough, and halves of the square cover
the same as the square. -/
theorem covers_decides_strip :
    Computed unitSquare ∧ Computed unitHalves ∧ Computed wideSquare ∧
    HasSurface (wideSquare.points \ unitSquare.points) (1 / 1000000000) ∧
    HasSurface (unitSquare.points \ wideSquare.points) 0 ∧
    HasSurface (unitSquare.points ∪ wideSquare.points) (1 + 1 / 1000000000) ∧
    unitSquare.sameExtent wideSquare = true ∧ unitHalves.covers wideSquare = true ∧
    wideSquare.covers unitSquare = true := by
  have square : Computed unitSquare := .ofBox _
  have halves : Computed unitHalves := .unionAll _
  have wide : Computed wideSquare := .ofBox _
  obtain ⟨points, apart⟩ := points_wideSquare
  have outside : HasSurface (wideSquare.points \ unitSquare.points) (1 / 1000000000) := by
    rw [points, Set.union_sdiff_left, sdiff_eq_left.mpr apart.symm]
    have strip := hasSurface_box (b := ⟨1, 0, 1 + 1 / 1000000000, 1⟩) (by decide +kernel)
    norm_num [Box.surface, Box.width, Box.height] at strip ⊢
    exact strip
  have sub : unitSquare.points ⊆ wideSquare.points := points ▸ Set.subset_union_left
  have uncovered : HasSurface (unitSquare.points \ wideSquare.points) 0 := by
    rw [Set.sdiff_eq_empty.mpr sub]
    exact hasSurface_empty
  have both : HasSurface (unitSquare.points ∪ wideSquare.points) (1 + 1 / 1000000000) := by
    rw [Set.union_eq_self_of_subset_left sub, wideSquare, points_ofBox]
    have whole := hasSurface_box (b := ⟨0, 0, 1 + 1 / 1000000000, 1⟩) (by decide +kernel)
    norm_num [Box.surface, Box.width, Box.height] at whole ⊢
    exact whole
  obtain ⟨-, -, -, decides, -, split⟩ := covers_decides square wide
  obtain ⟨covers, same⟩ := decides _ _ _ outside uncovered both
  refine ⟨square, halves, wide, outside, uncovered, both, same.mpr ?_, ?_, ?_⟩
  · exact ⟨by norm_num [Slight], by norm_num [Slight]⟩
  · rw [(split unitHalves wideSquare halves wide points_unitHalves rfl).1]
    exact covers.mpr (by norm_num [Slight])
  · exact (covers_decides wide square).2.2.2.2.1 sub

end ZoomConfig.Area
