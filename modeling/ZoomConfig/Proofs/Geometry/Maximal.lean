import Mathlib.Data.List.Pairwise
import ZoomConfig.Proofs.Geometry.Operations
import ZoomConfig.Proofs.Geometry.Order
/-!
The boxes that an area keeps.

Adding boxes one after the other drops some of them and takes others out again. What is left depends
on the boxes alone and not on their order: none of those that are left lies within another
(`Unnested`), and each that was added lies within one of them (`level_pushAll`). So they are the
largest of the boxes that are not empty, each once (`MadeOf`), and a union has the same boxes in
whatever order and however often its areas are taken (`parts_largest`).
-/
namespace ZoomConfig

namespace Box

/-- None of two boxes lies within the other. -/
def Apart {α : Type} [Coordinate α] (p q : Box α) : Prop :=
  p.contains q = false ∧ q.contains p = false

instance {α : Type} [Coordinate α] : Std.Symm (Apart (α := α)) := ⟨fun _ _ => And.symm⟩

variable {p q : Box ℚ} {xs ys zs xs' ys' : List (Box ℚ)}

theorem contains_antisymm (h : p.contains q = true) (h' : q.contains p = true) : p = q := by
  obtain ⟨left, right, bottom, top⟩ := contains_eq_true_iff.mp h
  obtain ⟨left', right', bottom', top'⟩ := contains_eq_true_iff.mp h'
  obtain ⟨l, b, r, t⟩ := p
  obtain ⟨l', b', r', t'⟩ := q
  exact (Box.mk.injEq ..).mpr ⟨le_antisymm left left', le_antisymm bottom bottom',
    le_antisymm right' right, le_antisymm top' top⟩

/-- A box of a list that is not empty and lies within no other one of the list that is not empty. -/
structure LargestOf (boxes : List (Box ℚ)) (p : Box ℚ) : Prop where
  mem : p ∈ boxes
  solid : p.isEmpty = false
  largest : ∀ q ∈ boxes, q.isEmpty = false → q.contains p = true → q = p

/-- Each box of a list that is not empty lies within a box of another list, which then is not empty
either. -/
def Beneath (xs ys : List (Box ℚ)) : Prop :=
  ∀ p ∈ xs, p.isEmpty = false → ∃ q ∈ ys, q.isEmpty = false ∧ q.contains p = true

theorem Beneath.of_subset (sub : xs ⊆ ys) : Beneath xs ys :=
  fun p mem solid => ⟨p, sub mem, solid, contains_self p⟩

theorem Beneath.trans (h : Beneath xs ys) (h' : Beneath ys zs) : Beneath xs zs := by
  intro p mem solid
  obtain ⟨q, mem, solid, within⟩ := h p mem solid
  obtain ⟨r, mem, solid, around⟩ := h' q mem solid
  exact ⟨r, mem, solid, contains_trans around within⟩

theorem Beneath.append (h : Beneath xs xs') (h' : Beneath ys ys') :
    Beneath (xs ++ ys) (xs' ++ ys') := by
  intro p mem solid
  rcases List.mem_append.mp mem with mem | mem
  · obtain ⟨q, mem, rest⟩ := h p mem solid
    exact ⟨q, List.mem_append_left ys' mem, rest⟩
  · obtain ⟨q, mem, rest⟩ := h' p mem solid
    exact ⟨q, List.mem_append_right xs' mem, rest⟩

/-- Each of two lists is beneath the other. -/
structure Level (xs ys : List (Box ℚ)) : Prop where
  down : Beneath xs ys
  up : Beneath ys xs

theorem Level.of_mem (same : ∀ p, p ∈ xs ↔ p ∈ ys) : Level xs ys :=
  ⟨.of_subset fun p => (same p).mp, .of_subset fun p => (same p).mpr⟩

theorem Level.refl (xs : List (Box ℚ)) : Level xs xs := .of_mem fun _ => Iff.rfl

theorem Level.symm (h : Level xs ys) : Level ys xs := ⟨h.up, h.down⟩

theorem Level.trans (h : Level xs ys) (h' : Level ys zs) : Level xs zs :=
  ⟨h.down.trans h'.down, h'.up.trans h.up⟩

theorem Level.append (h : Level xs xs') (h' : Level ys ys') : Level (xs ++ ys) (xs' ++ ys') :=
  ⟨h.down.append h'.down, h.up.append h'.up⟩

theorem Level.largest (level : Level xs ys) (h : p.LargestOf xs) : p.LargestOf ys := by
  -- A box of the other list around `p` lies within one of the first list, and that one is `p`.
  have only : ∀ q ∈ ys, q.isEmpty = false → q.contains p = true → q = p := by
    intro q mem solid around
    obtain ⟨r, mem, solid, within⟩ := level.up q mem solid
    obtain rfl : r = p := h.largest r mem solid (contains_trans within around)
    exact contains_antisymm around within
  obtain ⟨q, mem, solid, around⟩ := level.down p h.mem h.solid
  obtain rfl : q = p := only q mem solid around
  exact ⟨mem, solid, only⟩

end Box

namespace Area

/-! ## Boxes that lie apart -/

/-- No part lies within another one; in particular there is none twice. -/
def Unnested {α : Type} [Coordinate α] (a : Area α) : Prop := a.parts.Pairwise Box.Apart

section Pushing

variable {α : Type} [Coordinate α] {a : Area α}

/-- A box that is added has no part around it, and those within it are taken out. -/
theorem Unnested.push (h : a.Unnested) (b : Box α) : (a.push b).Unnested := by
  unfold Area.push
  split
  · exact h
  · next added =>
    have outside : ∀ p ∈ a.parts, p.contains b = false := by
      intro p mem
      rw [Bool.or_eq_true, not_or, List.any_eq_true] at added
      exact Bool.eq_false_iff.mpr fun around => added.2 ⟨p, mem, around⟩
    refine List.pairwise_append.mpr ⟨h.filter _, List.pairwise_singleton _ b, fun p mem q new => ?_⟩
    obtain ⟨old, kept⟩ := List.mem_filter.mp mem
    obtain rfl : q = b := List.mem_singleton.mp new
    exact ⟨outside p old, Bool.not_eq_true' _ |>.mp kept⟩

theorem Unnested.pushAll : ∀ (boxes : List (Box α)) {a : Area α}, a.Unnested →
    (a.pushAll boxes).Unnested
  | [], _, h => h
  | b :: rest, _, h => Unnested.pushAll rest (h.push b)

theorem unnested_pushAll (boxes : List (Box α)) : (empty.pushAll boxes).Unnested :=
  Unnested.pushAll boxes List.Pairwise.nil

theorem Computed.unnested (h : Computed a) : a.Unnested := by
  cases h with
  | empty => exact unnested_pushAll []
  | ofBox b => exact unnested_pushAll [b]
  | union a b => exact unnested_pushAll _
  | unionAll areas => exact unnested_pushAll _
  | clip a b => exact unnested_pushAll _

end Pushing

/-! ## The largest boxes -/

variable {a b : Area ℚ} {xs ys : List (Box ℚ)} {p : Box ℚ}

/-- The parts are the largest boxes of a list, each once. -/
structure MadeOf (a : Area ℚ) (boxes : List (Box ℚ)) : Prop where
  distinct : a.parts.Nodup
  parts : ∀ p, p ∈ a.parts ↔ p.LargestOf boxes

theorem Unnested.nodup (h : a.Unnested) : a.parts.Nodup := by
  refine h.imp fun {p q} apart same => ?_
  have none : p.contains q = false := apart.1
  rw [same, Box.contains_self] at none
  cases none

/-- Of two parts that are not the same none is around the other. -/
theorem Unnested.eq_of_contains (h : a.Unnested) {q : Box ℚ} (mem : p ∈ a.parts) (mem' : q ∈ a.parts)
    (around : q.contains p = true) : q = p := by
  by_contra other
  have none : q.contains p = false := (h.forall mem' mem other).1
  rw [around] at none
  cases none

/-- Parts that are not nested are the largest boxes of every list that they are level with. -/
theorem Unnested.madeOf (h : a.Unnested) (solid : a.Solid) (level : Box.Level xs a.parts) :
    a.MadeOf xs := by
  refine ⟨h.nodup, fun p => ⟨fun mem => ?_, fun largest => (level.largest largest).mem⟩⟩
  apply level.symm.largest
  exact ⟨mem, solid p mem, fun q mem' _ around => h.eq_of_contains mem mem' around⟩

/-- Every box that is added lies within one that is left, unless it is empty. -/
theorem level_pushAll (boxes : List (Box ℚ)) : Box.Level boxes (empty.pushAll boxes).parts := by
  constructor
  · intro p mem solid
    obtain ⟨q, kept, within⟩ := inside_pushAll boxes (a := empty) (.inr ⟨mem, solid⟩)
    refine ⟨q, kept, solid_pushAll boxes q kept, ?_⟩
    rcases within with rfl | around
    · exact Box.contains_self p
    · exact around
  · refine .of_subset fun p kept => ?_
    rcases of_mem_pushAll boxes kept with none | ⟨mem, _⟩
    · cases none
    · exact mem

theorem madeOf_pushAll (boxes : List (Box ℚ)) : (empty.pushAll boxes).MadeOf boxes :=
  (unnested_pushAll boxes).madeOf (solid_pushAll boxes) (level_pushAll boxes)

theorem MadeOf.perm (ha : a.MadeOf xs) (hb : b.MadeOf ys) (level : Box.Level xs ys) :
    a.parts.Perm b.parts := by
  refine (List.perm_ext_iff_of_nodup ha.distinct hb.distinct).mpr fun p => ?_
  calc p ∈ a.parts
      ↔ p.LargestOf xs := ha.parts p
    _ ↔ p.LargestOf ys := ⟨level.largest, level.symm.largest⟩
    _ ↔ p ∈ b.parts := (hb.parts p).symm

theorem pushAll_perm (level : Box.Level xs ys) :
    (empty.pushAll xs).parts.Perm (empty.pushAll ys).parts :=
  (madeOf_pushAll xs).perm (madeOf_pushAll ys) level

/-! ## Unions -/

theorem union_eq_pushAll (a b : Area ℚ) : a.union b = empty.pushAll (a.parts ++ b.parts) := by
  show empty.pushAll (a.parts ++ (b.parts ++ [])) = empty.pushAll (a.parts ++ b.parts)
  rw [List.append_nil]

theorem union_comm_perm (a b : Area ℚ) : (a.union b).parts.Perm (b.union a).parts := by
  rw [union_eq_pushAll, union_eq_pushAll]
  apply pushAll_perm
  apply Box.Level.of_mem
  intro p
  rw [List.mem_append, List.mem_append, or_comm]

theorem union_assoc_perm (a b c : Area ℚ) :
    ((a.union b).union c).parts.Perm (a.union (b.union c)).parts := by
  have first : Box.Level ((a.union b).parts ++ c.parts) (a.parts ++ (b.parts ++ c.parts)) := by
    rw [union_eq_pushAll, ← List.append_assoc]
    exact (level_pushAll _).symm.append (.refl _)
  have second : Box.Level (a.parts ++ (b.parts ++ c.parts)) (a.parts ++ (b.union c).parts) := by
    rw [union_eq_pushAll]
    exact (Box.Level.refl _).append (level_pushAll _)
  rw [union_eq_pushAll (a.union b) c, union_eq_pushAll a (b.union c)]
  exact pushAll_perm (first.trans second)

theorem union_self_perm (h : Computed a) : (a.union a).parts.Perm a.parts := by
  have whole : a.MadeOf a.parts := h.unnested.madeOf h.solid (.refl _)
  have twice : Box.Level (a.parts ++ a.parts) a.parts :=
    .of_mem fun p => by rw [List.mem_append, or_self]
  rw [union_eq_pushAll]
  exact (madeOf_pushAll _).perm whole twice

/-- Over exact numbers, boxes that are added one after the other, as a union and a cut do, leave
exactly those of them that are not empty and lie within no other such box, each once, whatever their
order and however often they are repeated. So what is computed has no empty part and none within
another, and unions are commutative, associative and idempotent but for the order of the parts. -/
theorem parts_largest :
    (∀ boxes : List (Box ℚ), (empty.pushAll boxes).MadeOf boxes) ∧
    (∀ areas : List (Area ℚ), (unionAll areas).MadeOf (areas.flatMap Area.parts)) ∧
    (∀ (a : Area ℚ) (b : Box ℚ), (a.clip b).MadeOf (a.parts.filterMap (·.intersection? b))) ∧
    (∀ xs ys : List (Box ℚ), (∀ b, b ∈ xs ↔ b ∈ ys) →
      (empty.pushAll xs).parts.Perm (empty.pushAll ys).parts) ∧
    (∀ a : Area ℚ, Computed a → a.Solid ∧ a.Unnested ∧ (a.union a).parts.Perm a.parts) ∧
    (∀ a b : Area ℚ, (a.union b).parts.Perm (b.union a).parts) ∧
    ∀ a b c : Area ℚ, ((a.union b).union c).parts.Perm (a.union (b.union c)).parts :=
  ⟨madeOf_pushAll, fun _ => madeOf_pushAll _, fun _ _ => madeOf_pushAll _,
    fun _ _ same => pushAll_perm (.of_mem same),
    fun _ computed => ⟨computed.solid, computed.unnested, union_self_perm computed⟩,
    union_comm_perm, union_assoc_perm⟩

/-- A box within the next, that one twice, an inverted box, and a box that sticks out. -/
def nestedBoxes : List (Box ℚ) :=
  [⟨0, 0, 1, 1⟩, ⟨0, 0, 2, 2⟩, ⟨0, 0, 2, 2⟩, ⟨5, 5, 4, 4⟩, ⟨1, 0, 3, 2⟩]

/-- In another order and with other repetitions the same two boxes are left. -/
theorem parts_largest_nested :
    (∀ b, b ∈ nestedBoxes ↔ b ∈ nestedBoxes.reverse ++ nestedBoxes) ∧
    (empty.pushAll nestedBoxes).parts.Perm
      (empty.pushAll (nestedBoxes.reverse ++ nestedBoxes)).parts ∧
    (empty.pushAll nestedBoxes).parts = [⟨0, 0, 2, 2⟩, ⟨1, 0, 3, 2⟩] ∧
    Computed (unionAll [⟨nestedBoxes⟩]) ∧
    ((unionAll [⟨nestedBoxes⟩]).union (unionAll [⟨nestedBoxes⟩])).parts.Perm
      (unionAll [⟨nestedBoxes⟩]).parts := by
  have same : ∀ b, b ∈ nestedBoxes ↔ b ∈ nestedBoxes.reverse ++ nestedBoxes :=
    fun b => by rw [List.mem_append, List.mem_reverse, or_self]
  have computed : Computed (unionAll [⟨nestedBoxes⟩]) := .unionAll _
  refine ⟨same, parts_largest.2.2.2.1 _ _ same, by decide +kernel, computed, ?_⟩
  exact (parts_largest.2.2.2.2.1 _ computed).2.2

end Area

end ZoomConfig
