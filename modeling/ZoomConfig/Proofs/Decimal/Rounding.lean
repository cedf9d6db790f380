import Mathlib.Algebra.Order.Field.Power
import Mathlib.Algebra.Order.Field.Rat
import Mathlib.Tactic.FieldSimp
import Mathlib.Tactic.Linarith
import Mathlib.Tactic.NormNum
import Mathlib.Tactic.Positivity
import Mathlib.Tactic.Ring
import ZoomConfig.Decimal.Shortest
/-!
The shortest digits of a double round to it and to no other.

`RoundsTo m e` holds of the numbers that round to the double `m · 2 ^ e`: those nearer to it than to
its neighbours, and those halfway if `m` is even. No number rounds to two doubles
(`roundsTo_unique`), the digits that are found do round to their double (`shortest_roundsTo`), and
so the digits determine the double.
-/
namespace ZoomConfig.Decimal

/-! ## Doubles and what rounds to them -/

/-- The mantissas and exponents of the positive doubles. -/
structure Fits (m : Nat) (e : Int) : Prop where
  pos : 0 < m
  lt : m < 2 * leastMantissa
  least : -1074 ≤ e
  most : e ≤ 971
  normal : leastMantissa ≤ m ∨ e = -1074

/-- Four times the mantissa, less the half unit to the next smaller double, or less the quarter where
that one is nearer. -/
def lowQuarters (m : Nat) (e : Int) : Nat :=
  4 * m - if m = leastMantissa ∧ -1074 < e then 1 else 2

/-- A number rounds to `m · 2 ^ e`. -/
def RoundsTo (m : Nat) (e : Int) (v : ℚ) : Prop :=
  if m % 2 = 0 then
    (lowQuarters m e : ℚ) * 2 ^ (e - 2) ≤ v ∧ v ≤ ((4 * m + 2 : Nat) : ℚ) * 2 ^ (e - 2)
  else
    (lowQuarters m e : ℚ) * 2 ^ (e - 2) < v ∧ v < ((4 * m + 2 : Nat) : ℚ) * 2 ^ (e - 2)

theorem RoundsTo.bounds {m : Nat} {e : Int} {v : ℚ} (h : RoundsTo m e v) :
    (lowQuarters m e : ℚ) * 2 ^ (e - 2) ≤ v ∧ v ≤ ((4 * m + 2 : Nat) : ℚ) * 2 ^ (e - 2) := by
  unfold RoundsTo at h
  split at h
  · exact h
  · exact ⟨h.1.le, h.2.le⟩

theorem RoundsTo.of_lt {m : Nat} {e : Int} {v : ℚ}
    (low : (lowQuarters m e : ℚ) * 2 ^ (e - 2) < v)
    (high : v < ((4 * m + 2 : Nat) : ℚ) * 2 ^ (e - 2)) : RoundsTo m e v := by
  unfold RoundsTo
  split
  · exact ⟨low.le, high.le⟩
  · exact ⟨low, high⟩

theorem RoundsTo.odd {m : Nat} {e : Int} {v : ℚ} (h : RoundsTo m e v) (odd : m % 2 ≠ 0) :
    (lowQuarters m e : ℚ) * 2 ^ (e - 2) < v ∧ v < ((4 * m + 2 : Nat) : ℚ) * 2 ^ (e - 2) := by
  unfold RoundsTo at h
  rwa [if_neg odd] at h

theorem RoundsTo.pos {m : Nat} {e : Int} {v : ℚ} (h : RoundsTo m e v) (fits : Fits m e) : 0 < v := by
  have low : 0 < lowQuarters m e := by
    have := fits.pos
    unfold lowQuarters
    split <;> omega
  have : (0 : ℚ) < (lowQuarters m e : ℚ) * 2 ^ (e - 2) := by positivity
  linarith [h.bounds.1]

/-- Of two doubles, what rounds to the smaller one lies below what rounds to the greater one. The
ends can only meet where one of them is open. -/
theorem roundsTo_lt {m m' : Nat} {e e' : Int} {v : ℚ} (fits : Fits m e) (fits' : Fits m' e')
    (smaller : e < e' ∨ e = e' ∧ m < m') (h : RoundsTo m e v) (h' : RoundsTo m' e' v) : False := by
  have unit : (0 : ℚ) < 2 ^ (e - 2) := by positivity
  have least : leastMantissa = 4503599627370496 := rfl
  rcases smaller with further | ⟨rfl, less⟩
  · -- A greater exponent belongs to a normal double, whose lower end is two units of the smaller.
    have normal : leastMantissa ≤ m' := by
      rcases fits'.normal with normal | same
      · exact normal
      · have := fits.least
        omega
    have low : 2 * leastMantissa * 4 - 2 ≤ 2 * lowQuarters m' e' := by
      have := fits.least
      unfold lowQuarters
      split <;> omega
    have twice : (2 : ℚ) * 2 ^ (e - 2) ≤ 2 ^ (e' - 2) := by
      rw [← zpow_one_add₀ (by norm_num : (2 : ℚ) ≠ 0)]
      exact zpow_le_zpow_right₀ (by norm_num) (by omega)
    have lowEnd : ((2 * leastMantissa * 4 - 2 : Nat) : ℚ) * 2 ^ (e - 2) ≤
        (lowQuarters m' e' : ℚ) * 2 ^ (e' - 2) := by
      have cast : ((2 * leastMantissa * 4 - 2 : Nat) : ℚ) ≤ 2 * (lowQuarters m' e' : ℚ) := by
        exact_mod_cast low
      calc ((2 * leastMantissa * 4 - 2 : Nat) : ℚ) * 2 ^ (e - 2)
          ≤ 2 * (lowQuarters m' e' : ℚ) * 2 ^ (e - 2) := by
            exact mul_le_mul_of_nonneg_right cast unit.le
        _ = (lowQuarters m' e' : ℚ) * (2 * 2 ^ (e - 2)) := by ring
        _ ≤ (lowQuarters m' e' : ℚ) * 2 ^ (e' - 2) := by
            exact mul_le_mul_of_nonneg_left twice (by positivity)
    by_cases odd : m % 2 = 0
    · have high : 4 * m + 2 < 2 * leastMantissa * 4 - 2 := by
        have := fits.lt
        omega
      have cast : ((4 * m + 2 : Nat) : ℚ) < ((2 * leastMantissa * 4 - 2 : Nat) : ℚ) := by
        exact_mod_cast high
      have := mul_lt_mul_of_pos_right cast unit
      linarith [h.bounds.2, h'.bounds.1]
    · have high : 4 * m + 2 ≤ 2 * leastMantissa * 4 - 2 := by
        have := fits.lt
        omega
      have cast : ((4 * m + 2 : Nat) : ℚ) ≤ ((2 * leastMantissa * 4 - 2 : Nat) : ℚ) := by
        exact_mod_cast high
      have := mul_le_mul_of_nonneg_right cast unit.le
      linarith [(h.odd odd).2, h'.bounds.1]
  · by_cases next : 4 * m + 2 < lowQuarters m' e
    · have cast : ((4 * m + 2 : Nat) : ℚ) < (lowQuarters m' e : ℚ) := by exact_mod_cast next
      have := mul_lt_mul_of_pos_right cast unit
      linarith [h.bounds.2, h'.bounds.1]
    · -- Neighbours: one of the two mantissas is odd, and leaves the common end out.
      have neighbours : 4 * m + 2 ≤ lowQuarters m' e ∧ (m % 2 ≠ 0 ∨ m' % 2 ≠ 0) := by
        unfold lowQuarters at next ⊢
        split at next <;> rename_i nearer <;> simp only [nearer, if_false] <;> omega
      have cast : ((4 * m + 2 : Nat) : ℚ) ≤ (lowQuarters m' e : ℚ) := by
        exact_mod_cast neighbours.1
      have := mul_le_mul_of_nonneg_right cast unit.le
      rcases neighbours.2 with odd | odd
      · linarith [(h.odd odd).2, h'.bounds.1]
      · linarith [h.bounds.2, (h'.odd odd).1]

/-- A number rounds to one double at most. -/
theorem roundsTo_unique {m m' : Nat} {e e' : Int} {v : ℚ} (fits : Fits m e) (fits' : Fits m' e')
    (h : RoundsTo m e v) (h' : RoundsTo m' e' v) : m = m' ∧ e = e' := by
  by_contra different
  have order : (e < e' ∨ e = e' ∧ m < m') ∨ (e' < e ∨ e' = e ∧ m' < m) := by omega
  rcases order with smaller | greater
  · exact roundsTo_lt fits fits' smaller h h'
  · exact roundsTo_lt fits' fits greater h' h

/-! ## The grid of a power of ten -/

/-- The number that digits stand for. -/
def Digits.value (d : Digits) : ℚ := d.digits * 10 ^ d.exponent

theorem tens_pos (k : Int) : 0 < tens k := Nat.pow_pos (by decide)

theorem tens_eq (k : Int) : (tens k : ℚ) = 10 ^ k * tens (-k) := by
  unfold tens
  rcases Int.le_total 0 k with h | h
  · obtain ⟨n, rfl⟩ := Int.eq_ofNat_of_zero_le h
    simp
  · obtain ⟨n, hn⟩ := Int.exists_eq_neg_ofNat h
    subst hn
    have : (10 : ℚ) ^ n ≠ 0 := by positivity
    simp [this]

namespace Interval

variable {i : Interval} {k : Int}

theorem denominator_pos (scale : 0 < i.scale) : (0 : ℚ) < tens (-k) * i.scale := by
  exact_mod_cast Nat.mul_pos (tens_pos (-k)) scale

theorem spread_eq (scale : 0 < i.scale) (n : Nat) :
    (spread k n : ℚ) = n / i.scale * (tens (-k) * i.scale) := by
  have scale' : (i.scale : ℚ) ≠ 0 := by exact_mod_cast scale.ne'
  unfold spread
  push_cast
  field_simp

theorem gridPoint_eq (d : Nat) : (i.gridPoint k d : ℚ) = d * 10 ^ k * (tens (-k) * i.scale) := by
  unfold gridPoint
  push_cast
  rw [tens_eq k]
  ring

theorem spread_le_gridPoint (scale : 0 < i.scale) (n d : Nat) :
    spread k n ≤ i.gridPoint k d ↔ (n : ℚ) / i.scale ≤ d * 10 ^ k := by
  rw [← Nat.cast_le (α := ℚ), spread_eq scale, gridPoint_eq,
    mul_le_mul_iff_left₀ (denominator_pos scale)]

theorem gridPoint_le_spread (scale : 0 < i.scale) (n d : Nat) :
    i.gridPoint k d ≤ spread k n ↔ (d : ℚ) * 10 ^ k ≤ (n : ℚ) / i.scale := by
  rw [← Nat.cast_le (α := ℚ), spread_eq scale, gridPoint_eq,
    mul_le_mul_iff_left₀ (denominator_pos scale)]

theorem spread_lt_gridPoint (scale : 0 < i.scale) (n d : Nat) :
    spread k n < i.gridPoint k d ↔ (n : ℚ) / i.scale < d * 10 ^ k := by
  rw [← not_le, ← not_le, gridPoint_le_spread scale]

theorem gridPoint_lt_spread (scale : 0 < i.scale) (n d : Nat) :
    i.gridPoint k d < spread k n ↔ (d : ℚ) * 10 ^ k < (n : ℚ) / i.scale := by
  rw [← not_le, ← not_le, spread_le_gridPoint scale]

theorem floorAt_le (scale : 0 < i.scale) : (i.floorAt k : ℚ) * 10 ^ k ≤ (i.value : ℚ) / i.scale := by
  rw [← gridPoint_le_spread scale]
  unfold gridPoint floorAt
  rw [Nat.mul_assoc]
  exact Nat.div_mul_le_self _ _

theorem lt_floorAt (scale : 0 < i.scale) :
    (i.value : ℚ) / i.scale < ((i.floorAt k + 1 : Nat) : ℚ) * 10 ^ k := by
  rw [← spread_lt_gridPoint scale]
  unfold gridPoint floorAt
  rw [Nat.mul_assoc]
  exact Nat.lt_mul_of_div_lt (Nat.lt_succ_self _) (Nat.mul_pos (tens_pos k) scale)

/-- What is found on a grid rounds to the double. -/
theorem holds_of_hit? {tie : Tie} {d : Nat} (h : i.hit? tie k = some d) : i.holds k d = true := by
  unfold hit? at h
  generalize i.floorAt k = f at h
  cases lower : i.holds k f <;> cases upper : i.holds k (f + 1) <;>
    simp only [lower, upper, reduceCtorEq, Option.some.injEq] at h
  -- Where both points round to the double, it does not matter which of them is taken.
  · rwa [← h]
  · rwa [← h]
  · split at h
    · rwa [← Option.some.inj h]
    · split at h
      · rwa [← Option.some.inj h]
      · cases tie <;> simp only [Option.some.injEq] at h
        · rwa [← h]
        · rcases Nat.mod_two_eq_zero_or_one f with even | odd
          · rwa [← h, even]
          · rwa [← h, odd]

theorem hit?_isSome {tie : Tie}
    (h : i.holds k (i.floorAt k) = true ∨ i.holds k (i.floorAt k + 1) = true) :
    ∃ d, i.hit? tie k = some d := by
  unfold hit?
  generalize i.floorAt k = f at h ⊢
  cases lower : i.holds k f <;> cases upper : i.holds k (f + 1) <;> simp [lower, upper] at h ⊢
  split
  · simp
  · split
    · simp
    · cases tie <;> simp

end Interval

/-! ## The interval of a double -/

theorem scale_pos (m : Nat) (e : Int) : 0 < (Interval.of m e).scale := by
  unfold Interval.of
  dsimp only
  split
  · exact Nat.pow_pos (by decide)
  · exact Nat.one_pos

/-- A numerator of the interval, in quarters of the unit. -/
theorem quarters_eq (m : Nat) (e : Int) (n : Nat) :
    ((n * (if e - 2 < 0 then 1 else Nat.pow 2 (e - 2).natAbs) : Nat) : ℚ) /
      (Interval.of m e).scale = n * 2 ^ (e - 2) := by
  unfold Interval.of
  dsimp only
  split
  · rename_i negative
    obtain ⟨j, hj⟩ := Int.exists_eq_neg_ofNat negative.le
    rw [hj]
    simp [div_eq_mul_inv]
  · rename_i positive
    obtain ⟨j, hj⟩ := Int.eq_ofNat_of_zero_le (not_lt.1 positive)
    rw [hj]
    simp

theorem low_eq (m : Nat) (e : Int) :
    ((Interval.of m e).low : ℚ) / (Interval.of m e).scale = lowQuarters m e * 2 ^ (e - 2) := by
  rw [← quarters_eq m]
  simp [Interval.of, lowQuarters, beq_iff_eq]

theorem high_eq (m : Nat) (e : Int) :
    ((Interval.of m e).high : ℚ) / (Interval.of m e).scale =
      ((4 * m + 2 : Nat) : ℚ) * 2 ^ (e - 2) := by
  rw [← quarters_eq m]
  rfl

theorem value_eq (m : Nat) (e : Int) :
    ((Interval.of m e).value : ℚ) / (Interval.of m e).scale = m * 2 ^ e := by
  have : ((Interval.of m e).value : ℚ) / (Interval.of m e).scale =
      ((4 * m : Nat) : ℚ) * 2 ^ (e - 2) := by
    rw [← quarters_eq m]
    rfl
  rw [this, zpow_sub₀ (by norm_num)]
  push_cast
  ring

/-- A grid point is taken if it rounds to the double. -/
theorem holds_iff (m : Nat) (e k : Int) (d : Nat) :
    (Interval.of m e).holds k d = true ↔ RoundsTo m e (d * 10 ^ k) := by
  have scale := scale_pos m e
  have closed : (Interval.of m e).closed = (m % 2 == 0) := rfl
  unfold Interval.holds RoundsTo
  rw [closed, ← low_eq, ← high_eq]
  by_cases even : m % 2 = 0
  · simp [even, Interval.spread_le_gridPoint scale, Interval.gridPoint_le_spread scale]
  · simp [even, Interval.spread_lt_gridPoint scale, Interval.gridPoint_lt_spread scale]

theorem not_below_iff (m : Nat) (e p : Int) :
    (Interval.of m e).below p = false ↔ (10 : ℚ) ^ p ≤ m * 2 ^ e := by
  have : (Interval.of m e).below p = false ↔
      (Interval.of m e).gridPoint p 1 ≤ Interval.spread p (Interval.of m e).value := by
    unfold Interval.below Interval.gridPoint
    simp
  rw [this, Interval.gridPoint_le_spread (scale_pos m e), value_eq]
  simp

/-- A power of ten from the logarithm to base two: the estimate is never a place too high. -/
theorem estimate_le (l : Int) (low : -20000 ≤ l) (high : l ≤ 20000) :
    (10 : ℚ) ^ ((l * 30103).fdiv 100000 - 1) ≤ 2 ^ l := by
  have floor : (l * 30103).fdiv 100000 * 100000 ≤ l * 30103 := by
    rw [Int.fdiv_eq_ediv_of_nonneg _ (by decide)]
    omega
  generalize (l * 30103).fdiv 100000 = a at floor
  -- A fraction a little below the logarithm of two to base ten serves above one, and one a little
  -- above it below.
  rcases le_total 0 l with positive | negative
  · have powers : ((10 : ℚ) ^ (a - 1)) ^ 196 ≤ (2 ^ l) ^ 196 := by
      calc ((10 : ℚ) ^ (a - 1)) ^ 196 = 10 ^ ((a - 1) * 196) := by
            rw [zpow_mul]
            rfl
        _ ≤ 10 ^ (59 * l) := zpow_le_zpow_right₀ (by norm_num) (by omega)
        _ = (10 ^ (59 : Nat)) ^ l := by
            rw [zpow_mul]
            rfl
        _ ≤ (2 ^ (196 : Nat)) ^ l := zpow_le_zpow_left₀ positive (by norm_num) (by norm_num)
        _ = (2 ^ l) ^ 196 := by
            rw [← zpow_natCast, ← zpow_natCast, ← zpow_mul, ← zpow_mul, mul_comm]
    exact le_of_pow_le_pow_left₀ (by decide) (by positivity) powers
  · have powers : ((10 : ℚ) ^ (a - 1)) ^ 93 ≤ (2 ^ l) ^ 93 := by
      calc ((10 : ℚ) ^ (a - 1)) ^ 93 = 10 ^ ((a - 1) * 93) := by
            rw [zpow_mul]
            rfl
        _ ≤ 10 ^ (28 * l) := zpow_le_zpow_right₀ (by norm_num) (by omega)
        _ = (10 ^ (28 : Nat)) ^ l := by
            rw [zpow_mul]
            rfl
        _ ≤ (2 ^ (93 : Nat)) ^ l := by
            obtain ⟨j, rfl⟩ := Int.exists_eq_neg_ofNat negative
            rw [zpow_neg, zpow_neg, zpow_natCast, zpow_natCast]
            exact inv_anti₀ (by positivity) (pow_le_pow_left₀ (by norm_num) (by norm_num) j)
        _ = (2 ^ l) ^ 93 := by
            rw [← zpow_natCast, ← zpow_natCast, ← zpow_mul, ← zpow_mul, mul_comm]
    exact le_of_pow_le_pow_left₀ (by decide) (by positivity) powers

/-- The logarithms of value and scale, and how far apart they can be. -/
theorem log2_le_value {m : Nat} {e : Int} (fits : Fits m e) {l : Int}
    (hl : l = ((Interval.of m e).value.log2 : Int) - (Interval.of m e).scale.log2) :
    (2 : ℚ) ^ l ≤ m * 2 ^ e ∧ -20000 ≤ l ∧ l ≤ 20000 := by
  have positive := fits.pos
  have lt : 4 * m < 2 ^ 55 := by
    have : leastMantissa = 4503599627370496 := rfl
    have := fits.lt
    omega
  -- One of the two factors is one. The scale is a power of two, so its logarithm is exact.
  have shape : ∃ j s : Nat, (Interval.of m e).value = 4 * m * 2 ^ j ∧
      (Interval.of m e).scale = 2 ^ s ∧ j ≤ 1100 ∧ s ≤ 1100 := by
    have := fits.least
    have := fits.most
    unfold Interval.of
    dsimp only
    split
    · exact ⟨0, (e - 2).natAbs, by simp, rfl, by omega, by omega⟩
    · exact ⟨(e - 2).natAbs, 0, rfl, rfl, by omega, by omega⟩
  obtain ⟨j, s, value, scale, hj, hs⟩ := shape
  have nonzero : 4 * m * 2 ^ j ≠ 0 := by positivity
  have logScale : (Interval.of m e).scale.log2 = s := by rw [scale, Nat.log2_two_pow]
  have logValue : (Interval.of m e).value.log2 < 55 + j := by
    rw [value, Nat.log2_lt nonzero, Nat.pow_add]
    exact Nat.mul_lt_mul_of_pos_right lt (Nat.two_pow_pos j)
  refine ⟨?_, by omega, by omega⟩
  have least : 2 ^ (Interval.of m e).value.log2 ≤ (Interval.of m e).value :=
    Nat.log2_self_le (by rw [value]; exact nonzero)
  rw [hl, ← value_eq, logScale, scale, zpow_sub₀ (by norm_num), zpow_natCast, zpow_natCast]
  push_cast
  apply div_le_div_of_nonneg_right
  · exact_mod_cast least
  · positivity

theorem place_le {m : Nat} {e : Int} (fits : Fits m e) :
    (10 : ℚ) ^ ((Interval.of m e).place - 1) ≤ m * 2 ^ e := by
  unfold Interval.place
  generalize hl : ((Interval.of m e).value.log2 : Int) - (Interval.of m e).scale.log2 = l
  obtain ⟨below, low, high⟩ := log2_le_value fits hl.symm
  have guess := estimate_le l low high
  dsimp only
  generalize (l * 30103).fdiv 100000 = a at guess
  -- Only the lowest of the three candidates rests on the estimate; the others were compared.
  split
  · rename_i notBelow
    rw [Bool.not_eq_true', not_below_iff] at notBelow
    simpa using notBelow
  · split
    · refine le_trans ?_ below
      simpa using guess
    · rename_i notBelow
      rw [Bool.not_eq_true, not_below_iff] at notBelow
      exact notBelow

/-- Seventeen digits are enough: the grid is finer than the interval is wide. -/
theorem hit?_finest {m : Nat} {e : Int} (fits : Fits m e) (tie : Tie) :
    ∃ d, (Interval.of m e).hit? tie ((Interval.of m e).place - 17) = some d := by
  generalize hk : (Interval.of m e).place - 17 = k
  have scale := scale_pos m e
  have unit : (0 : ℚ) < 2 ^ (e - 2) := by positivity
  have value : (m : ℚ) * 2 ^ e = 4 * m * 2 ^ (e - 2) := by
    rw [zpow_sub₀ (by norm_num)]
    ring
  have step : (10 : ℚ) ^ k * 10 ^ 16 ≤ 4 * m * 2 ^ (e - 2) := by
    have split : (10 : ℚ) ^ ((Interval.of m e).place - 1) = 10 ^ k * 10 ^ 16 := by
      have : (Interval.of m e).place - 1 = k + (16 : Nat) := by omega
      rw [this, zpow_add₀ (by norm_num), zpow_natCast]
    rw [← split, ← value]
    exact place_le fits
  have below := Interval.floorAt_le (i := Interval.of m e) (k := k) scale
  have above := Interval.lt_floorAt (i := Interval.of m e) (k := k) scale
  rw [value_eq, value] at below above
  push_cast at above
  generalize hd : (Interval.of m e).floorAt k = d at below above
  have least : leastMantissa = 4503599627370496 := rfl
  have small : (10 : ℚ) ^ k * 10 ^ 16 < 4 * (2 * leastMantissa : Nat) * 2 ^ (e - 2) := by
    have : (m : ℚ) < (2 * leastMantissa : Nat) := by exact_mod_cast fits.lt
    have := mul_lt_mul_of_pos_right this unit
    linarith
  have lowQuarters_le : (lowQuarters m e : ℚ) ≤ 4 * m := by
    exact_mod_cast Nat.sub_le (4 * m) _
  have low := mul_le_mul_of_nonneg_right lowQuarters_le unit.le
  -- The grid point below the value is taken if it is near enough; else the one above is.
  apply Interval.hit?_isSome
  rw [holds_iff, holds_iff, hd]
  push_cast [least] at small
  by_cases inside : (lowQuarters m e : ℚ) * 2 ^ (e - 2) < d * 10 ^ k
  · apply Or.inl
    apply RoundsTo.of_lt inside
    push_cast
    linarith
  · apply Or.inr
    apply RoundsTo.of_lt
    · push_cast
      linarith
    · push_cast
      rw [not_lt] at inside
      by_cases nearer : m = leastMantissa
      · -- The lower neighbour may be nearer, but then the grid is twice as fine.
        rw [nearer, least] at step below ⊢
        push_cast at step below ⊢
        linarith
      · have quarters : (lowQuarters m e : ℚ) = 4 * m - 2 := by
          have := fits.pos
          unfold lowQuarters
          rw [if_neg (by tauto), Nat.cast_sub (by omega)]
          push_cast
          ring
        rw [quarters] at inside
        linarith

/-- The digits that are found round to the double. -/
theorem Interval.shortest_roundsTo {m : Nat} {e : Int} (fits : Fits m e) (tie : Tie) :
    RoundsTo m e ((Interval.of m e).shortest tie).value := by
  obtain ⟨last, found⟩ := hit?_finest fits tie
  unfold Interval.shortest
  dsimp only
  generalize (Interval.of m e).place = p at found
  cases search : (List.range 17).findSome? fun n =>
    ((Interval.of m e).hit? tie (p - (n + 1 : Nat))).map fun d => Digits.mk d (p - (n + 1 : Nat)) with
  | none =>
    -- The finest grid would have no point either.
    have missed := List.findSome?_eq_none_iff.1 search 16 (by decide)
    rw [Option.map_eq_none_iff] at missed
    rw [show p - ((16 + 1 : Nat) : Int) = p - 17 from rfl, found] at missed
    cases missed
  | some digits =>
    obtain ⟨n, -, hit⟩ := List.exists_of_findSome?_eq_some search
    obtain ⟨d, hd, rfl⟩ := Option.map_eq_some_iff.1 hit
    exact (holds_iff m e _ d).1 (Interval.holds_of_hit? hd)

theorem Digits.trim_go_value (fuel : Nat) (d : Digits) : (Digits.trim.go fuel d).value = d.value := by
  induction fuel generalizing d with
  | zero => rfl
  | succ fuel ih =>
    unfold Digits.trim.go
    split
    · rename_i zeros
      rw [ih]
      simp only [ne_eq, Bool.and_eq_true, decide_eq_true_eq] at zeros
      obtain ⟨q, hq⟩ := Nat.dvd_of_mod_eq_zero zeros.2
      unfold Digits.value
      rw [hq, Nat.mul_div_cancel_left q (by decide), zpow_add₀ (by norm_num)]
      push_cast
      ring
    · rfl

theorem Digits.trim_value (d : Digits) : d.trim.value = d.value :=
  Digits.trim_go_value 20 d

/-- The shortest digits round to their double. -/
theorem shortest_roundsTo {m : Nat} {e : Int} (fits : Fits m e) (tie : Tie) :
    RoundsTo m e (shortest tie m e).value := by
  unfold shortest
  rw [Digits.trim_value]
  exact Interval.shortest_roundsTo fits tie

theorem shortest_injective {m m' : Nat} {e e' : Int} (fits : Fits m e) (fits' : Fits m' e')
    (tie : Tie) (h : (shortest tie m e).value = (shortest tie m' e').value) :
    m = m' ∧ e = e' := by
  have rounds := shortest_roundsTo fits tie
  rw [h] at rounds
  exact roundsTo_unique fits fits' rounds (shortest_roundsTo fits' tie)

end ZoomConfig.Decimal
