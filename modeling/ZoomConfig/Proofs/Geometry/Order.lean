import Mathlib.Algebra.Order.Ring.Rat
import ZoomConfig.Proofs.Geometry.Points
/-!
Areas over any ordered coordinates.

The order of doubles is transitive although it is not total, and so is that of exact numbers
(`Coordinate.Transitive`). That is all that a union needs: a box that is dropped is empty or lies
within another, so a union of more areas has more points (`Area.unionAll_mono`).
-/
namespace ZoomConfig

/-- Coordinates whose order is transitive. -/
class Coordinate.Transitive (α : Type) [Coordinate α] : Prop where
  le_trans : ∀ {a b c : α}, a ≤ b → b ≤ c → a ≤ c
  lt_of_lt_of_le : ∀ {a b c : α}, a < b → b ≤ c → a < c

instance : Coordinate.Transitive ℚ where
  le_trans := le_trans
  lt_of_lt_of_le := lt_of_lt_of_le

/-! ## Doubles -/

section Doubles

open Float.Model

/-- Where a double stands: its side of zero, then its exponent, then its mantissa. What is not a
number stands nowhere. -/
def floatPlace : UnpackedFloat → Option (Int × Int × Int)
  | .notANumber => none
  | .infinity .negative => some (-2, 0, 0)
  | .finite .negative m e _ => some (-1, -e, -m)
  | .zero _ => some (0, 0, 0)
  | .finite .positive m e _ => some (1, e, m)
  | .infinity .positive => some (2, 0, 0)

/-- The order of places. -/
def comparePlaces : Int × Int × Int → Int × Int × Int → Ordering :=
  compareLex (compareOn (·.1)) (compareLex (compareOn (·.2.1)) (compareOn (·.2.2)))

instance : Std.TransCmp comparePlaces := inferInstanceAs (Std.TransCmp (compareLex _ _))

theorem compare_cast (a b : Nat) : compare (a : Int) b = compare a b := by
  simp only [Int.compare_eq_ite_lt, Nat.compare_eq_ite_lt, Int.ofNat_lt]

theorem compare_neg (a b : Int) : compare (-a) (-b) = (compare a b).swap := by
  rw [Int.compare_swap]
  simp only [Int.compare_eq_ite_lt, Int.neg_lt_neg_iff]

theorem compare_eq (a b : UnpackedFloat) :
    a.compare b = (floatPlace a).bind fun p => (floatPlace b).map (comparePlaces p) := by
  rcases a with (_ | _) | _ | (_ | _) | ⟨(_ | _), m, e, _⟩ <;>
    rcases b with (_ | _) | _ | (_ | _) | ⟨(_ | _), m', e', _⟩ <;>
    try rfl
  -- Only finite doubles on the same side of zero are compared any further.
  · show some ((compare e e').then (compare m m')).swap =
      some ((compare (-e) (-e')).then (compare (-(m : Int)) (-(m' : Int))))
    rw [compare_neg, compare_neg, compare_cast, Ordering.swap_then]
  · show some ((compare e e').then (compare m m')) =
      some ((compare e e').then (compare (m : Int) m'))
    rw [compare_cast]

theorem float_le_iff (a b : Float) : a ≤ b ↔ ∃ p, floatPlace a.toModel.unpack = some p ∧
    ∃ q, floatPlace b.toModel.unpack = some q ∧ (comparePlaces p q).isLE = true := by
  have unpacked : a ≤ b ↔ a.toModel.unpack.le b.toModel.unpack = true := decide_eq_true_iff
  rw [unpacked, UnpackedFloat.le, compare_eq]
  cases floatPlace a.toModel.unpack <;> cases floatPlace b.toModel.unpack <;> simp

theorem float_lt_iff (a b : Float) : a < b ↔ ∃ p, floatPlace a.toModel.unpack = some p ∧
    ∃ q, floatPlace b.toModel.unpack = some q ∧ comparePlaces p q = .lt := by
  have unpacked : a < b ↔ a.toModel.unpack.lt b.toModel.unpack = true := decide_eq_true_iff
  rw [unpacked, UnpackedFloat.lt, compare_eq]
  cases floatPlace a.toModel.unpack <;> cases floatPlace b.toModel.unpack <;> simp

instance : Coordinate.Transitive Float where
  le_trans := by
    intro a b c hab hbc
    obtain ⟨p, hp, q, hq, first⟩ := (float_le_iff a b).mp hab
    obtain ⟨q', hq', r, hr, second⟩ := (float_le_iff b c).mp hbc
    obtain rfl : q = q' := Option.some.inj (hq.symm.trans hq')
    exact (float_le_iff a c).mpr ⟨p, hp, r, hr, Std.TransCmp.isLE_trans first second⟩
  lt_of_lt_of_le := by
    intro a b c hab hbc
    obtain ⟨p, hp, q, hq, first⟩ := (float_lt_iff a b).mp hab
    obtain ⟨q', hq', r, hr, second⟩ := (float_le_iff b c).mp hbc
    obtain rfl : q = q' := Option.some.inj (hq.symm.trans hq')
    exact (float_lt_iff a c).mpr ⟨p, hp, r, hr, Std.TransCmp.lt_of_lt_of_isLE first second⟩

end Doubles

/-! ## Points -/

variable {α : Type} [Coordinate α]

/-- A point is in a box. -/
def Box.Has (b : Box α) (x y : α) : Prop := b.left ≤ x ∧ x < b.right ∧ b.bottom ≤ y ∧ y < b.top

/-- A point is in one of the boxes of an area. -/
def Area.Has (a : Area α) (x y : α) : Prop := ∃ b ∈ a.parts, b.Has x y

/-- A box is another one, or lies within it. -/
def Box.Inside (b outer : Box α) : Prop := b = outer ∨ outer.contains b = true

variable [Coordinate.Transitive α]

open Coordinate.Transitive

namespace Box

theorem contains_trans {a b c : Box α} (hab : a.contains b = true) (hbc : b.contains c = true) :
    a.contains c = true := by
  obtain ⟨left, right, bottom, top⟩ := contains_eq_true_iff.mp hab
  obtain ⟨left', right', bottom', top'⟩ := contains_eq_true_iff.mp hbc
  exact contains_eq_true_iff.mpr ⟨le_trans left left', le_trans right' right,
    le_trans bottom bottom', le_trans top' top⟩

theorem Inside.trans {a b c : Box α} (hab : a.Inside b) (hbc : b.Inside c) : a.Inside c := by
  rcases hbc with rfl | within
  · exact hab
  · rcases hab with rfl | here
    · exact .inr within
    · exact .inr (contains_trans within here)

theorem Inside.has {b outer : Box α} (h : b.Inside outer) {x y : α} (inside : b.Has x y) :
    outer.Has x y := by
  rcases h with rfl | within
  · exact inside
  · obtain ⟨left, right, bottom, top⟩ := contains_eq_true_iff.mp within
    obtain ⟨fromLeft, toRight, fromBottom, toTop⟩ := inside
    exact ⟨le_trans left fromLeft, lt_of_lt_of_le toRight right, le_trans bottom fromBottom,
      lt_of_lt_of_le toTop top⟩

end Box

namespace Area

omit [Coordinate.Transitive α] in
/-- The boxes of an area to which a box was added are old or the new one, which is not empty. -/
theorem of_mem_push {a : Area α} {b p : Box α} (mem : p ∈ (a.push b).parts) :
    p ∈ a.parts ∨ p = b ∧ b.isEmpty = false := by
  unfold push at mem
  split at mem
  · exact .inl mem
  · next added =>
    rcases List.mem_append.mp mem with mem | mem
    · exact .inl (List.mem_filter.mp mem).1
    · have some : b.isEmpty = false := by simp_all
      exact .inr ⟨List.mem_singleton.mp mem, some⟩

omit [Coordinate.Transitive α] in
theorem inside_push {a : Area α} {b q : Box α}
    (there : q ∈ a.parts ∨ q = b ∧ b.isEmpty = false) : ∃ p ∈ (a.push b).parts, q.Inside p := by
  unfold push
  split
  · next passed =>
    rcases there with old | ⟨rfl, some⟩
    · exact ⟨q, old, .inl rfl⟩
    · have held : a.parts.any (·.contains q) = true := by simpa [some] using passed
      obtain ⟨p, mem, within⟩ := List.any_eq_true.mp held
      exact ⟨p, mem, .inr within⟩
  · rcases there with old | ⟨rfl, _⟩
    · by_cases absorbed : b.contains q = true
      · exact ⟨b, by simp, .inr absorbed⟩
      · exact ⟨q, by simp [old, absorbed], .inl rfl⟩
    · exact ⟨q, by simp, .inl rfl⟩

omit [Coordinate.Transitive α] in
theorem of_mem_pushAll {p : Box α} : ∀ (boxes : List (Box α)) {a : Area α},
    p ∈ (a.pushAll boxes).parts → p ∈ a.parts ∨ p ∈ boxes ∧ p.isEmpty = false
  | [], _, mem => .inl mem
  | b :: rest, a, mem => by
    rcases of_mem_pushAll rest (a := a.push b) mem with mem | ⟨mem, some⟩
    · rcases of_mem_push mem with old | ⟨rfl, some⟩
      · exact .inl old
      · exact .inr ⟨List.mem_cons_self, some⟩
    · exact .inr ⟨List.mem_cons_of_mem b mem, some⟩

theorem inside_pushAll {q : Box α} : ∀ (boxes : List (Box α)) {a : Area α},
    q ∈ a.parts ∨ q ∈ boxes ∧ q.isEmpty = false → ∃ p ∈ (a.pushAll boxes).parts, q.Inside p
  | [], _, there => by
    have old := there.resolve_right (by simp)
    exact ⟨q, old, .inl rfl⟩
  | b :: rest, a, there => by
    have step : (q ∈ a.parts ∨ q = b ∧ b.isEmpty = false) ∨ q ∈ rest ∧ q.isEmpty = false := by
      rcases there with old | ⟨mem, some⟩
      · exact .inl (.inl old)
      · rcases List.mem_cons.mp mem with rfl | mem
        · exact .inl (.inr ⟨rfl, some⟩)
        · exact .inr ⟨mem, some⟩
    rcases step with here | later
    · obtain ⟨p, mem, within⟩ := inside_push here
      obtain ⟨r, mem, around⟩ := inside_pushAll rest (a := a.push b) (.inl mem)
      exact ⟨r, mem, within.trans around⟩
    · exact inside_pushAll rest (a := a.push b) (.inr later)

/-- A union of more areas has more points. -/
theorem unionAll_mono {areas more : List (Area α)} (sub : ∀ a ∈ areas, a ∈ more) {x y : α}
    (inside : (unionAll areas).Has x y) : (unionAll more).Has x y := by
  obtain ⟨b, mem, has⟩ := inside
  obtain ⟨given, some⟩ := (of_mem_pushAll _ mem).resolve_left fun none => nomatch none
  obtain ⟨a, there, part⟩ := List.mem_flatMap.mp given
  obtain ⟨p, here, within⟩ : ∃ p ∈ (unionAll more).parts, b.Inside p :=
    inside_pushAll _ (.inr ⟨List.mem_flatMap.mpr ⟨a, sub a there, part⟩, some⟩)
  exact ⟨p, here, within.has has⟩

end Area

end ZoomConfig
