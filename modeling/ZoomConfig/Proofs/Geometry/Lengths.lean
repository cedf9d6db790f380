import Mathlib.Algebra.BigOperators.Group.List.Basic
import Mathlib.Data.List.Dedup
import Mathlib.Data.List.Sort
import ZoomConfig.Proofs.Geometry.Points
/-!
Lengths on a line.

Lines in ascending order cut a stretch into gaps (`windows`). A set of numbers that is made of spans
between lines holds a gap wholly or not at all, so its length is that of the gaps whose lower ends it
holds (`lengthOf`). A span is as long as its ends are apart (`lengthOf_span`), and disjoint sets add
up (`lengthOf_or`). The loop that merges spans computes the length of all of them together, overlaps
counted once (`coveredFrom_eq`).
-/
namespace ZoomConfig.Area

/-- The distinct numbers of a list in ascending order. -/
def linesOf (numbers : List ℚ) : List ℚ := numbers.dedup.insertionSort (· ≤ ·)

theorem mem_linesOf {numbers : List ℚ} {x : ℚ} : x ∈ linesOf numbers ↔ x ∈ numbers := by
  rw [linesOf, List.mem_insertionSort, List.mem_dedup]

theorem linesOf_ascending (numbers : List ℚ) : (linesOf numbers).Pairwise (· < ·) := by
  have sorted : (linesOf numbers).Pairwise (· ≤ ·) := List.pairwise_insertionSort _ _
  have distinct : (linesOf numbers).Nodup :=
    (List.perm_insertionSort _ _).nodup_iff.mpr numbers.nodup_dedup
  exact (sorted.and distinct).imp fun both => lt_of_le_of_ne both.1 both.2

/-- The length of the gaps whose lower ends pass a test. -/
def lengthOf (lines : List ℚ) (test : ℚ → Bool) : ℚ :=
  ((windows lines).map fun g => if test g.1 then g.2 - g.1 else 0).sum

variable {lines : List ℚ}

/-! ## Gaps -/

theorem windows_cons (x y : ℚ) (rest : List ℚ) :
    windows (x :: y :: rest) = (x, y) :: windows (y :: rest) := rfl

theorem mem_of_mem_windows {g : ℚ × ℚ} (mem : g ∈ windows lines) : g.1 ∈ lines ∧ g.2 ∈ lines := by
  obtain ⟨low, high⟩ := List.of_mem_zip (show (g.1, g.2) ∈ lines.zip lines.tail from mem)
  exact ⟨low, List.mem_of_mem_tail high⟩

/-- No line lies within a gap. -/
theorem lt_iff_of_mem_windows (ascending : lines.Pairwise (· < ·)) {g : ℚ × ℚ}
    (mem : g ∈ windows lines) {x : ℚ} (line : x ∈ lines) : g.1 < x ↔ g.2 ≤ x := by
  induction lines with
  | nil => cases line
  | cons first lines ih =>
    obtain ⟨below, ascending⟩ := List.pairwise_cons.mp ascending
    cases lines with
    | nil => cases mem
    | cons second lines =>
      rw [windows_cons] at mem
      rcases List.mem_cons.mp mem with rfl | further
      · -- The first gap ends at the second line, and all other lines are above that.
        rcases List.mem_cons.mp line with rfl | line
        · exact iff_of_false (lt_irrefl _) (not_le.mpr (below second List.mem_cons_self))
        · refine iff_of_true (below x line) ?_
          rcases List.mem_cons.mp line with rfl | line
          · exact le_refl _
          · exact ((List.pairwise_cons.mp ascending).1 x line).le
      · rcases List.mem_cons.mp line with rfl | line
        · obtain ⟨low, high⟩ := mem_of_mem_windows further
          exact iff_of_false (below _ low).not_gt (below _ high).not_ge
        · exact ih ascending further line

/-- Every number between two lines is in a gap. -/
theorem exists_mem_windows (ascending : lines.Pairwise (· < ·)) {low high x : ℚ}
    (start : low ∈ lines) (stop : high ∈ lines) (above : low ≤ x) (below : x < high) :
    ∃ g ∈ windows lines, g.1 ≤ x ∧ x < g.2 := by
  induction lines generalizing low with
  | nil => cases start
  | cons first lines ih =>
    obtain ⟨least, ascending⟩ := List.pairwise_cons.mp ascending
    have here : first ≤ x := by
      rcases List.mem_cons.mp start with rfl | start
      · exact above
      · exact (least low start).le.trans above
    have stop : high ∈ lines := (List.mem_cons.mp stop).resolve_left (here.trans_lt below).ne'
    cases lines with
    | nil => cases stop
    | cons second lines =>
      rcases lt_or_ge x second with inside | beyond
      · exact ⟨(first, second), List.mem_cons_self, here, inside⟩
      · obtain ⟨g, mem, inside⟩ := ih ascending List.mem_cons_self stop beyond
        exact ⟨g, List.mem_cons_of_mem _ mem, inside⟩

theorem windows_pairwise (ascending : lines.Pairwise (· < ·)) :
    (windows lines).Pairwise fun g h => g.2 ≤ h.1 := by
  induction lines with
  | nil => exact .nil
  | cons first lines ih =>
    obtain ⟨_, ascending⟩ := List.pairwise_cons.mp ascending
    cases lines with
    | nil => exact .nil
    | cons second lines =>
      rw [windows_cons]
      refine List.pairwise_cons.mpr ⟨fun h mem => ?_, ih ascending⟩
      rcases List.mem_cons.mp (mem_of_mem_windows mem).1 with same | later
      · exact same.ge
      · exact ((List.pairwise_cons.mp ascending).1 h.1 later).le

/-! ## Lengths -/

section Lengths

variable {test other : ℚ → Bool}

theorem lengthOf_congr (same : ∀ g ∈ windows lines, test g.1 = other g.1) :
    lengthOf lines test = lengthOf lines other := by
  unfold lengthOf
  rw [List.map_congr_left fun g mem => by rw [same g mem]]

theorem lengthOf_none (none : ∀ g ∈ windows lines, test g.1 = false) : lengthOf lines test = 0 := by
  have same : lengthOf lines test = lengthOf lines fun _ => false := lengthOf_congr none
  rw [same]
  simp [lengthOf]

theorem lengthOf_eq_filter (lines : List ℚ) (test : ℚ → Bool) :
    lengthOf lines test =
      (((windows lines).filter fun g => test g.1).map fun g => g.2 - g.1).sum := by
  rw [lengthOf, List.sum_map_ite (fun g : ℚ × ℚ => test g.1 = true)]
  simp

/-- The lengths of disjoint sets add up. -/
theorem lengthOf_or (disjoint : ∀ x, test x = true → other x = false) :
    lengthOf lines (fun x => test x || other x) = lengthOf lines test + lengthOf lines other := by
  unfold lengthOf
  rw [← List.sum_map_add]
  refine congrArg List.sum (List.map_congr_left fun g _ => ?_)
  cases here : test g.1 with
  | false => simp [here]
  | true => simp [here, disjoint g.1 here]

theorem lengthOf_below {first high : ℚ} (ascending : (first :: lines).Pairwise (· < ·))
    (line : high ∈ first :: lines) :
    lengthOf (first :: lines) (fun x => decide (x < high)) = high - first := by
  induction lines generalizing first with
  | nil =>
    rw [List.mem_singleton.mp line, sub_self]
    rfl
  | cons second lines ih =>
    obtain ⟨least, further⟩ := List.pairwise_cons.mp ascending
    rcases List.mem_cons.mp line with rfl | line
    · rw [sub_self]
      refine lengthOf_none fun g mem => decide_eq_false (not_lt.mpr ?_)
      rcases List.mem_cons.mp (mem_of_mem_windows mem).1 with same | later
      · exact same.ge
      · exact (least g.1 later).le
    · have rest := ih further line
      unfold lengthOf at rest ⊢
      rw [windows_cons, List.map_cons, List.sum_cons, rest, if_pos (decide_eq_true (least high line))]
      exact sub_add_sub_cancel' second first high

/-- The numbers from one line on and before another. -/
def inSpan (low high x : ℚ) : Bool := decide (low ≤ x) && decide (x < high)

theorem inSpan_iff {low high x : ℚ} : inSpan low high x = true ↔ low ≤ x ∧ x < high := by
  simp [inSpan]

/-- A span is as long as its ends are apart. -/
theorem lengthOf_span (ascending : lines.Pairwise (· < ·)) {low high : ℚ} (start : low ∈ lines)
    (stop : high ∈ lines) (order : low ≤ high) : lengthOf lines (inSpan low high) = high - low := by
  cases lines with
  | nil => cases start
  | cons first lines =>
    -- What is below the upper end is what is below the lower one, and the span.
    have split : lengthOf (first :: lines) (fun x => decide (x < high)) =
        lengthOf (first :: lines) fun x => decide (x < low) || inSpan low high x := by
      refine lengthOf_congr fun g _ => ?_
      rw [Bool.eq_iff_iff, Bool.or_eq_true, inSpan_iff, decide_eq_true_iff, decide_eq_true_iff]
      constructor
      · intro below
        rcases lt_or_ge g.1 low with lower | inside
        · exact .inl lower
        · exact .inr ⟨inside, below⟩
      · intro given
        rcases given with lower | ⟨_, below⟩
        · exact lower.trans_le order
        · exact below
    rw [lengthOf_or, lengthOf_below ascending stop, lengthOf_below ascending start] at split
    · linarith
    · intro x lower
      rw [← Bool.not_eq_true, inSpan_iff]
      exact fun inside => absurd (of_decide_eq_true lower) (not_lt.mpr inside.1)

end Lengths

/-! ## Merging spans -/

/-- The numbers that lie in one of the spans. -/
def inSpans (spans : List (ℚ × ℚ)) (x : ℚ) : Bool := spans.any fun s => inSpan s.1 s.2 x

theorem inSpans_iff {spans : List (ℚ × ℚ)} {x : ℚ} :
    inSpans spans x = true ↔ ∃ s ∈ spans, s.1 ≤ x ∧ x < s.2 := by
  simp only [inSpans, List.any_eq_true, inSpan_iff]

/-- A span and one that begins within it or at its end make one span. -/
theorem inSpan_joined {start low stop high : ℚ} (order : start ≤ low) (touching : low ≤ stop)
    (further : stop ≤ high) (x : ℚ) :
    (inSpan start stop x || inSpan low high x) = inSpan start high x := by
  rw [Bool.eq_iff_iff, Bool.or_eq_true, inSpan_iff, inSpan_iff, inSpan_iff]
  constructor
  · intro given
    rcases given with ⟨above, below⟩ | ⟨above, below⟩
    · exact ⟨above, below.trans_le further⟩
    · exact ⟨order.trans above, below⟩
  · intro inside
    rcases lt_or_ge x stop with below | beyond
    · exact .inl ⟨inside.1, below⟩
    · exact .inr ⟨touching.trans beyond, inside.2⟩

theorem inSpan_inner {start low stop high : ℚ} (order : start ≤ low) (inner : high ≤ stop) (x : ℚ) :
    (inSpan start stop x || inSpan low high x) = inSpan start stop x := by
  rw [Bool.or_eq_left_iff_imp, inSpan_iff, inSpan_iff]
  exact fun inside => ⟨order.trans inside.1, inside.2.trans_le inner⟩

/-- Merging spans that come in the order of their lower ends gives the length of them together with
the stretch that is being grown. -/
theorem coveredFrom_eq (ascending : lines.Pairwise (· < ·)) {spans : List (ℚ × ℚ)}
    (sorted : spans.Pairwise fun s t => s.1 ≤ t.1)
    (ends : ∀ s ∈ spans, s.1 ∈ lines ∧ s.2 ∈ lines ∧ s.1 ≤ s.2) {start stop : ℚ}
    (opens : start ∈ lines) (closes : stop ∈ lines) (order : start ≤ stop)
    (later : ∀ s ∈ spans, start ≤ s.1) (covered : ℚ) :
    coveredFrom start stop covered spans =
      covered + lengthOf lines fun x => inSpan start stop x || inSpans spans x := by
  induction spans generalizing start stop covered with
  | nil =>
    have alone : lengthOf lines (fun x => inSpan start stop x || inSpans [] x) = stop - start := by
      rw [← lengthOf_span ascending opens closes order]
      exact lengthOf_congr fun g _ => Bool.or_false _
    rw [alone]
    rfl
  | cons s spans ih =>
    obtain ⟨least, sorted⟩ := List.pairwise_cons.mp sorted
    obtain ⟨⟨low, high, span⟩, ends⟩ := List.forall_mem_cons.mp ends
    obtain ⟨after, later⟩ := List.forall_mem_cons.mp later
    unfold coveredFrom
    split
    · next apart =>
      -- The stretch ends before this span and all that follow.
      rw [ih sorted ends low high span least, add_assoc,
        ← lengthOf_span ascending opens closes order, ← lengthOf_or]
      · rfl
      · intro x inside
        have before : x < s.1 := (inSpan_iff.mp inside).2.trans apart
        rw [Bool.eq_false_iff, ne_eq, Bool.or_eq_true, inSpan_iff, inSpans_iff]
        rintro (here | ⟨t, mem, there⟩)
        · exact here.1.not_gt before
        · exact ((least t mem).trans there.1).not_gt before
    · next touching =>
      -- This span and the stretch meet: they are one stretch, or the span is within it.
      have meets : s.1 ≤ stop := not_lt.mp touching
      have merged : ∀ x, (inSpan start stop x || inSpans (s :: spans) x) =
          ((inSpan start stop x || inSpan s.1 s.2 x) || inSpans spans x) :=
        fun x => (Bool.or_assoc _ _ _).symm
      split
      · next further =>
        rw [ih sorted ends opens high (order.trans further.le) later]
        simp only [merged, inSpan_joined after meets further.le]
      · next inner =>
        rw [ih sorted ends opens closes order later]
        simp only [merged, inSpan_inner after (not_lt.mp inner)]

end ZoomConfig.Area
