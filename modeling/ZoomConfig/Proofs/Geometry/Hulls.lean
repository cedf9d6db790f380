import ZoomConfig.Proofs.Geometry.Order
/-!
Hulls of boxes with sides that are numbers.

Of two doubles that are numbers one is at most the other (`float_le_of_not_lt`). So the smaller and
the larger of two are their bounds, and a box is around the hull of two boxes exactly if it is around
both (`Box.Proper.contains_hull`). Boxes that lie within each other have the same sides, up to the
sign of a zero (`Box.same_of_contains`).
-/
namespace ZoomConfig

open Float.Model

/-! ## The order of doubles that are numbers -/

theorem exists_floatPlace {x : Float} (number : x.isNaN = false) :
    ∃ p, floatPlace x.toModel.unpack = some p := by
  change x.toModel.unpack.isNaN = false at number
  generalize x.toModel.unpack = u at number
  rcases u with (_ | _) | _ | _ | ⟨(_ | _), _, _, _⟩
  case notANumber => cases number
  all_goals exact ⟨_, rfl⟩

section Order

variable {a b c : Float}

theorem float_le_of_lt (h : a < b) : a ≤ b := by
  obtain ⟨p, hp, q, hq, lt⟩ := (float_lt_iff a b).mp h
  exact (float_le_iff a b).mpr ⟨p, hp, q, hq, by rw [lt]; rfl⟩

theorem float_le_of_not_lt (ha : a.isNaN = false) (hb : b.isNaN = false) (h : ¬b < a) : a ≤ b := by
  obtain ⟨p, hp⟩ := exists_floatPlace ha
  obtain ⟨q, hq⟩ := exists_floatPlace hb
  refine (float_le_iff a b).mpr ⟨p, hp, q, hq, ?_⟩
  by_contra above
  exact h ((float_lt_iff b a).mpr ⟨q, hq, p, hp, Std.OrientedCmp.lt_of_not_isLE above⟩)

theorem float_le_refl (ha : a.isNaN = false) : a ≤ a := by
  obtain ⟨p, hp⟩ := exists_floatPlace ha
  exact (float_le_iff a a).mpr ⟨p, hp, p, hp, Std.ReflCmp.isLE_rfl⟩

/-- Doubles that are on neither side of each other are equal, but for the sign of a zero. -/
theorem float_beq_of_le (hab : a ≤ b) (hba : b ≤ a) : (a == b) = true := by
  obtain ⟨p, hp, q, hq, le⟩ := (float_le_iff a b).mp hab
  obtain ⟨_, hq', _, hp', ge⟩ := (float_le_iff b a).mp hba
  obtain rfl := Option.some.inj (hq.symm.trans hq')
  obtain rfl := Option.some.inj (hp.symm.trans hp')
  change (a.toModel.unpack.compare b.toModel.unpack == some .eq) = true
  rw [compare_eq, hp, hq]
  have same : comparePlaces p q = .eq := Std.OrientedCmp.isLE_antisymm le ge
  simp [same]

open Coordinate Coordinate.Transitive

theorem smaller_eq (ha : a.isNaN = false) : smaller a b = if b < a then b else a :=
  if_neg (by rw [ha]; exact Bool.false_ne_true)

theorem larger_eq (ha : a.isNaN = false) : larger a b = if a < b then b else a :=
  if_neg (by rw [ha]; exact Bool.false_ne_true)

theorem le_smaller_iff (ha : a.isNaN = false) (hb : b.isNaN = false) :
    c ≤ smaller a b ↔ c ≤ a ∧ c ≤ b := by
  rw [smaller_eq ha]
  split
  · next below => exact ⟨fun h => ⟨le_trans h (float_le_of_lt below), h⟩, And.right⟩
  · next other => exact ⟨fun h => ⟨h, le_trans h (float_le_of_not_lt ha hb other)⟩, And.left⟩

theorem larger_le_iff (ha : a.isNaN = false) (hb : b.isNaN = false) :
    larger a b ≤ c ↔ a ≤ c ∧ b ≤ c := by
  rw [larger_eq ha]
  split
  · next above => exact ⟨fun h => ⟨le_trans (float_le_of_lt above) h, h⟩, And.right⟩
  · next other => exact ⟨fun h => ⟨h, le_trans (float_le_of_not_lt hb ha other) h⟩, And.left⟩

theorem smaller_eq_or (ha : a.isNaN = false) : smaller a b = a ∨ smaller a b = b := by
  rw [smaller_eq ha]
  split
  · exact .inr rfl
  · exact .inl rfl

theorem larger_eq_or (ha : a.isNaN = false) : larger a b = a ∨ larger a b = b := by
  rw [larger_eq ha]
  split
  · exact .inr rfl
  · exact .inl rfl

theorem smaller_isNaN (ha : a.isNaN = false) (hb : b.isNaN = false) :
    (smaller a b).isNaN = false := by
  rcases smaller_eq_or (b := b) ha with same | same <;> rw [same] <;> assumption

theorem larger_isNaN (ha : a.isNaN = false) (hb : b.isNaN = false) :
    (larger a b).isNaN = false := by
  rcases larger_eq_or (b := b) ha with same | same <;> rw [same] <;> assumption

end Order

/-! ## Boxes -/

namespace Box

/-- All sides are numbers. -/
structure Proper (b : Box Float) : Prop where
  left : b.left.isNaN = false
  bottom : b.bottom.isNaN = false
  right : b.right.isNaN = false
  top : b.top.isNaN = false

variable {a b c : Box Float}

theorem Proper.hull (ha : a.Proper) (hb : b.Proper) : (a.hull b).Proper where
  left := smaller_isNaN ha.left hb.left
  bottom := smaller_isNaN ha.bottom hb.bottom
  right := larger_isNaN ha.right hb.right
  top := larger_isNaN ha.top hb.top

theorem Proper.contains_self (h : b.Proper) : b.contains b = true :=
  contains_eq_true_iff.mpr ⟨float_le_refl h.left, float_le_refl h.right, float_le_refl h.bottom,
    float_le_refl h.top⟩

/-- A box is around the hull of two boxes exactly if it is around both. -/
theorem Proper.contains_hull (ha : a.Proper) (hb : b.Proper) :
    c.contains (a.hull b) = true ↔ c.contains a = true ∧ c.contains b = true := by
  simp only [contains_eq_true_iff, Box.hull, le_smaller_iff ha.left hb.left,
    le_smaller_iff ha.bottom hb.bottom, larger_le_iff ha.right hb.right,
    larger_le_iff ha.top hb.top]
  tauto

/-- Boxes within each other have the same sides. -/
theorem same_of_contains (hab : a.contains b = true) (hba : b.contains a = true) :
    a.same b = true := by
  obtain ⟨left, right, bottom, top⟩ := contains_eq_true_iff.mp hab
  obtain ⟨left', right', bottom', top'⟩ := contains_eq_true_iff.mp hba
  simp only [same, Bool.and_eq_true]
  exact ⟨⟨⟨float_beq_of_le left left', float_beq_of_le bottom bottom'⟩,
    float_beq_of_le right' right⟩, float_beq_of_le top' top⟩

end Box

end ZoomConfig
