import Equate.Decimal.Shortest
import Equate.Proofs.Number.Rounding
import Mathlib.Tactic.LinearCombination

/-!
# Shortest decimals

`shortest_spec`: what `shortest` finds has at most seventeen digits and lies between the halfway
points around the double. The grid of seventeen digits always has such a point, since two of its
points around the double are closer to each other than the halfway points are.
-/

namespace Equate.Decimal

/-! ### Counting digits -/

theorem pow_length_toDigits_le {n : ℕ} (positive : 0 < n) :
    10 ^ ((Nat.toDigits 10 n).length - 1) ≤ n := by
  by_contra less
  have less : n < 10 ^ ((Nat.toDigits 10 n).length - 1) := Nat.lt_of_not_le less
  rcases Nat.eq_zero_or_pos ((Nat.toDigits 10 n).length - 1) with zero | several
  · rw [zero] at less
    omega
  · have shorter := (Nat.length_toDigits_le_iff (by decide) several).mpr less
    omega

theorem lt_pow_length_toDigits (n : ℕ) : n < 10 ^ (Nat.toDigits 10 n).length :=
  (Nat.length_toDigits_le_iff (by decide) Nat.length_toDigits_pos).mp (Nat.le_refl _)

theorem digitCount_bounds {n : ℕ} (positive : 0 < n) :
    0 < digitCount n ∧ 10 ^ (digitCount n - 1) ≤ n ∧ n < 10 ^ digitCount n := by
  have count : digitCount n = (Nat.toDigits 10 n).length := by simp [digitCount, positive.ne']
  rw [count]
  exact ⟨Nat.length_toDigits_pos, pow_length_toDigits_le positive, lt_pow_length_toDigits n⟩

/-! ### Exact values -/

def Ratio.value (r : Ratio) : ℚ := r.num / r.den

theorem value_ofBinary (m : ℕ) (e : ℤ) : (Ratio.ofBinary m e).value = m * 2 ^ e := by
  rw [zpow_eq_div]
  simp only [Ratio.value, Ratio.ofBinary, Nat.pow_eq]
  push_cast
  ring

/-- The magnitude of a ratio is the exponent of the power of ten next below it. -/
theorem magnitude_bounds {r : Ratio} (num : 0 < r.num) (den : 0 < r.den) :
    (10 : ℚ) ^ r.magnitude ≤ r.value ∧ r.value < 10 ^ (r.magnitude + 1) := by
  have num' : (0 : ℚ) < r.num := by exact_mod_cast num
  have den' : (0 : ℚ) < r.den := by exact_mod_cast den
  unfold Ratio.magnitude Ratio.value
  split
  · rename_i above
    obtain ⟨some_digit, low, high⟩ := digitCount_bounds (Nat.div_pos above den)
    generalize digitCount (r.num / r.den) = k at some_digit low high
    rw [Nat.le_div_iff_mul_le den] at low
    rw [Nat.div_lt_iff_lt_mul den] at high
    have low' : (10 : ℚ) ^ (k - 1) * r.den ≤ r.num := by exact_mod_cast low
    have high' : (r.num : ℚ) < 10 ^ k * r.den := by exact_mod_cast high
    constructor
    · rw [show (k : ℤ) - 1 = (k - 1 : ℕ) by omega, zpow_natCast, le_div_iff₀ den']
      exact low'
    · rw [sub_add_cancel, zpow_natCast, div_lt_iff₀ den']
      exact high'
  · rename_i below
    obtain ⟨some_digit, low, high⟩ :=
      digitCount_bounds (n := (r.den - 1) / r.num) (Nat.div_pos (by omega) num)
    generalize digitCount ((r.den - 1) / r.num) = k at some_digit low high
    rw [Nat.le_div_iff_mul_le num] at low
    rw [Nat.div_lt_iff_lt_mul num] at high
    have low' : (10 : ℚ) ^ (k - 1) * r.num < r.den := by
      exact_mod_cast (show 10 ^ (k - 1) * r.num < r.den by omega)
    have high' : (r.den : ℚ) ≤ 10 ^ k * r.num := by
      exact_mod_cast (show r.den ≤ 10 ^ k * r.num by omega)
    constructor
    · rw [zpow_neg, zpow_natCast, inv_le_comm₀ (by positivity) (by positivity), inv_div,
        div_le_iff₀ num']
      exact high'
    · rw [show -(k : ℤ) + 1 = -((k - 1 : ℕ) : ℤ) by omega, zpow_neg, zpow_natCast,
        lt_inv_comm₀ (by positivity) (by positivity), inv_div, lt_div_iff₀ num']
      exact low'

/-! ### Rounding intervals -/

section Interval

variable {m : ℕ} {e unit : ℤ}

/-- A quarter of the distance between doubles, in units of a grid, over the common denominator. -/
def quarter (e unit : ℤ) : ℕ := 2 ^ (e - 2).toNat * 10 ^ (-unit).toNat

theorem den_pos (m : ℕ) (e unit : ℤ) : 0 < ((Interval.around m e).inUnits unit).den :=
  Nat.mul_pos (Nat.pow_pos (by decide)) (Nat.pow_pos (by decide))

theorem quarter_eq (m : ℕ) (e unit : ℤ) :
    (quarter e unit : ℚ) * 4 * 10 ^ unit = ((Interval.around m e).inUnits unit).den * 2 ^ e := by
  have power : (2 : ℚ) ^ e = 4 * 2 ^ (e - 2) := by
    rw [zpow_sub₀ two_ne_zero]
    norm_num
    ring
  rw [power, zpow_eq_div 10, zpow_eq_div 2 (e - 2), neg_sub]
  simp only [quarter, Interval.around, Interval.inUnits, Nat.pow_eq]
  push_cast
  field_simp

theorem quarter_pos (e unit : ℤ) : (0 : ℚ) < quarter e unit := by
  exact_mod_cast Nat.mul_pos (Nat.pow_pos (by decide)) (Nat.pow_pos (by decide))

theorem point_eq (m n : ℕ) (e unit : ℤ) :
    ((n * ((Interval.around m e).inUnits unit).den : ℕ) : ℚ) =
      4 * (n * 10 ^ unit / 2 ^ e) * quarter e unit := by
  have scale := quarter_eq m e unit
  push_cast
  field_simp
  linear_combination -(n : ℚ) * scale

/-- The ends of the interval are the halfway points. -/
theorem ends_eq (e unit : ℤ) (positive : 0 < m) :
    (((Interval.around m e).inUnits unit).low : ℚ) = 4 * (m - gapBelow m e) * quarter e unit ∧
      (((Interval.around m e).inUnits unit).high : ℚ) = 4 * (m + 1 / 2) * quarter e unit := by
  let below : ℕ := if m = 2 ^ 52 ∧ -1074 < e then 1 else 2
  have quarters : (below : ℚ) = 4 * gapBelow m e := by
    simp only [below, gapBelow]
    split <;> norm_num
  have enough : below ≤ 4 * m := by
    simp only [below]
    split <;> omega
  have low : ((Interval.around m e).inUnits unit).low = (4 * m - below) * quarter e unit := by
    simp [below, Interval.around, Interval.inUnits, quarter, Nat.mul_assoc]
  have high : ((Interval.around m e).inUnits unit).high = (4 * m + 2) * quarter e unit := by
    simp [Interval.around, Interval.inUnits, quarter, Nat.mul_assoc]
  rw [low, high, Nat.cast_mul, Nat.cast_sub enough, Nat.cast_mul, quarters]
  push_cast
  constructor <;> ring

theorem holds_iff (positive : 0 < m) (n : ℕ) :
    ((Interval.around m e).inUnits unit).holds n = true ↔ Near m e (n * 10 ^ unit) := by
  have parity : ((Interval.around m e).inUnits unit).closed = (m % 2 == 0) := rfl
  have four : (0 : ℚ) < 4 * quarter e unit := mul_pos (by norm_num) (quarter_pos e unit)
  have point := point_eq m n e unit
  obtain ⟨low, high⟩ := ends_eq e unit positive
  unfold Near Interval.holds
  rw [parity]
  generalize (n : ℚ) * 10 ^ unit / 2 ^ e = z at point ⊢
  generalize (Interval.around m e).inUnits unit = i at point low high ⊢
  rw [mul_right_comm] at point low high
  have le_point : i.low ≤ n * i.den ↔ m - gapBelow m e ≤ z := by
    rw [← Nat.cast_le (α := ℚ), point, low]
    exact mul_le_mul_iff_right₀ four
  have lt_point : i.low < n * i.den ↔ m - gapBelow m e < z := by
    rw [← Nat.cast_lt (α := ℚ), point, low]
    exact mul_lt_mul_iff_right₀ four
  have point_le : n * i.den ≤ i.high ↔ z ≤ m + 1 / 2 := by
    rw [← Nat.cast_le (α := ℚ), point, high]
    exact mul_le_mul_iff_right₀ four
  have point_lt : n * i.den < i.high ↔ z < m + 1 / 2 := by
    rw [← Nat.cast_lt (α := ℚ), point, high]
    exact mul_lt_mul_iff_right₀ four
  rcases Nat.mod_two_eq_zero_or_one m with even | odd
  · simp [even, le_point, point_le]
  · rw [gapBelow_of_odd odd] at lt_point ⊢
    simp only [odd, Nat.reduceBEq, Bool.false_eq_true, if_false, Bool.and_eq_true,
      decide_eq_true_iff, lt_point, point_lt, forall_const]
    constructor
    · rintro ⟨above, under⟩
      exact ⟨above.le, under.le, above, under⟩
    · rintro ⟨-, -, strict⟩
      exact strict

theorem nearest_spec {i : Interval} {n : ℕ} (found : i.nearest? = some n) :
    i.holds n = true ∧ (n = i.mid / i.den ∨ n = i.mid / i.den + 1) := by
  unfold Interval.nearest? at found
  simp only [] at found
  split at found
  · rename_i here next
    obtain rfl := Option.some.inj found
    have sides : Ratio.round ⟨i.mid, i.den⟩ = i.mid / i.den ∨
        Ratio.round ⟨i.mid, i.den⟩ = i.mid / i.den + 1 := by
      unfold Ratio.round
      simp only []
      split
      · exact Or.inl rfl
      · split
        · exact Or.inr rfl
        · split
          · exact Or.inl rfl
          · exact Or.inr rfl
    rcases sides with same | same
    · rw [same]
      exact ⟨here, Or.inl rfl⟩
    · rw [same]
      exact ⟨next, Or.inr rfl⟩
  · rename_i here next
    obtain rfl := Option.some.inj found
    exact ⟨here, Or.inl rfl⟩
  · rename_i here next
    obtain rfl := Option.some.inj found
    exact ⟨next, Or.inr rfl⟩
  · cases found

theorem nearest_isSome {i : Interval}
    (inside : i.holds (i.mid / i.den) = true ∨ i.holds (i.mid / i.den + 1) = true) :
    i.nearest?.isSome := by
  unfold Interval.nearest?
  rcases inside with here | next
  · cases next : i.holds (i.mid / i.den + 1) <;> simp [here, next]
  · cases here : i.holds (i.mid / i.den) <;> simp [here, next]

/-- The grid points on the two sides of a number. -/
theorem mid_bounds (m : ℕ) (e unit : ℤ) :
    let i := (Interval.around m e).inUnits unit
    ((i.mid / i.den : ℕ) : ℚ) ≤ m * 2 ^ e / 10 ^ unit ∧
      (m * 2 ^ e / 10 ^ unit : ℚ) < (i.mid / i.den : ℕ) + 1 := by
  intro i
  have positive : 0 < i.den := den_pos m e unit
  have positive' : (0 : ℚ) < i.den := by exact_mod_cast positive
  have mid : i.mid = 4 * m * quarter e unit := by
    simp [i, Interval.around, Interval.inUnits, quarter, Nat.mul_assoc]
  have value : (m * 2 ^ e / 10 ^ unit : ℚ) = i.mid / i.den := by
    have scale := quarter_eq m e unit
    rw [div_eq_div_iff (by positivity) positive'.ne', mid]
    push_cast
    linear_combination -(m : ℚ) * scale
  have below : i.mid / i.den * i.den ≤ i.mid := Nat.div_mul_le_self ..
  have above : i.mid < (i.mid / i.den + 1) * i.den := by
    rw [mul_comm]
    exact Nat.lt_mul_div_succ i.mid positive
  rw [value, le_div_iff₀ positive', div_lt_iff₀ positive']
  exact ⟨by exact_mod_cast below, by exact_mod_cast above⟩

/-- One of two points around a double, less than its width apart, rounds to it. -/
theorem near_of_between {x y : ℚ} (below : x ≤ m * 2 ^ e) (above : m * 2 ^ e ≤ y)
    (close : y / 2 ^ e - x / 2 ^ e < gapBelow m e + 1 / 2) : Near m e x ∨ Near m e y := by
  have scale : (0 : ℚ) < 2 ^ e := by positivity
  rw [← div_le_iff₀ scale] at below
  rw [← le_div_iff₀ scale] at above
  unfold Near
  have gap : 0 < gapBelow m e := by
    rcases gapBelow_cases m e with gap | gap <;> rw [gap] <;> norm_num
  rcases lt_or_ge ((m : ℚ) - gapBelow m e) (x / 2 ^ e) with inside | outside
  · refine Or.inl ⟨inside.le, by linarith, fun odd => ⟨?_, by linarith⟩⟩
    rwa [gapBelow_of_odd odd] at inside
  · exact Or.inr ⟨by linarith, by linarith, fun odd => ⟨by linarith, by linarith⟩⟩

end Interval

/-! ### The search -/

section Search

variable {m : ℕ} {e : ℤ} (positive : 0 < m) (upper : m < 2 ^ 53)
include positive

theorem value_bounds :
    (10 : ℚ) ^ (Ratio.ofBinary m e).magnitude ≤ m * 2 ^ e ∧
      (m * 2 ^ e : ℚ) < 10 ^ ((Ratio.ofBinary m e).magnitude + 1) := by
  rw [← value_ofBinary]
  apply magnitude_bounds
  · exact Nat.mul_pos positive (Nat.pow_pos (by decide))
  · exact Nat.pow_pos (by decide)

include upper

/-- The grid of seventeen digits is finer than the doubles. -/
theorem nearest_of_sixteen :
    ((Interval.around m e).inUnits ((Ratio.ofBinary m e).magnitude - 16)).nearest?.isSome := by
  obtain ⟨least, -⟩ := value_bounds (e := e) positive
  generalize (Ratio.ofBinary m e).magnitude = top at least ⊢
  obtain ⟨below, above⟩ := mid_bounds m e (top - 16)
  apply nearest_isSome
  rw [holds_iff positive, holds_iff positive]
  generalize ((Interval.around m e).inUnits (top - 16)).mid /
    ((Interval.around m e).inUnits (top - 16)).den = n at below above ⊢
  have grid : (0 : ℚ) < 10 ^ (top - 16) := by positivity
  have scale : (0 : ℚ) < 2 ^ e := by positivity
  rw [le_div_iff₀ grid] at below
  rw [div_lt_iff₀ grid] at above
  apply near_of_between below (by push_cast; exact above.le)
  have width : ((n + 1 : ℕ) : ℚ) * 10 ^ (top - 16) / 2 ^ e - n * 10 ^ (top - 16) / 2 ^ e =
      10 ^ (top - 16) / 2 ^ e := by
    push_cast
    ring
  have coarse : (10 : ℚ) ^ (top - 16) / 2 ^ e ≤ m / 10 ^ 16 := by
    have split : (10 : ℚ) ^ (top - 16) * 10 ^ 16 = 10 ^ top := by
      rw [zpow_sub₀ (by norm_num), zpow_ofNat]
      exact div_mul_cancel₀ _ (by norm_num)
    rw [div_le_div_iff₀ scale (by positivity), split]
    exact least
  rw [width]
  refine coarse.trans_lt ?_
  unfold gapBelow
  split
  · rename_i power
    rw [power.1]
    norm_num
  · have upper' : (m : ℚ) < 2 ^ 53 := by exact_mod_cast upper
    rw [div_lt_iff₀ (by positivity)]
    exact upper'.trans (by norm_num)

omit upper in
/-- The points of a grid beside the double have as many digits as the grid, or are the next power of
ten. -/
theorem coefficient_bounds (more : ℕ) :
    let top := (Ratio.ofBinary m e).magnitude
    let i := (Interval.around m e).inUnits (top - more)
    10 ^ more ≤ i.mid / i.den ∧ i.mid / i.den < 10 ^ (more + 1) := by
  intro top i
  obtain ⟨least, most⟩ := value_bounds (e := e) positive
  obtain ⟨below, above⟩ := mid_bounds m e (top - more)
  change (10 : ℚ) ^ top ≤ m * 2 ^ e at least
  change (m * 2 ^ e : ℚ) < 10 ^ (top + 1) at most
  have grid : (0 : ℚ) < 10 ^ (top - more) := by positivity
  have power : (10 : ℚ) ^ top = 10 ^ more * 10 ^ (top - more) := by
    rw [zpow_sub₀ (by norm_num), zpow_natCast]
    field_simp
  rw [div_lt_iff₀ grid] at above
  rw [le_div_iff₀ grid] at below
  have low : ((10 ^ more : ℕ) : ℚ) < (i.mid / i.den + 1 : ℕ) := by
    push_cast
    apply lt_of_mul_lt_mul_right _ grid.le
    exact (power ▸ least).trans_lt above
  have high : ((i.mid / i.den : ℕ) : ℚ) < (10 ^ (more + 1) : ℕ) := by
    push_cast
    apply lt_of_mul_lt_mul_right _ grid.le
    rw [pow_succ, mul_right_comm, ← power]
    rw [zpow_add_one₀ (by norm_num)] at most
    exact below.trans_lt most
  have low' : 10 ^ more < i.mid / i.den + 1 := by exact_mod_cast low
  exact ⟨Nat.lt_succ_iff.mp low', by exact_mod_cast high⟩

theorem shortest_spec :
    ∃ more n : ℕ, more ≤ 16 ∧
      shortest m e = .ofUnits n ((Ratio.ofBinary m e).magnitude - more) ∧
      Near m e (n * 10 ^ ((Ratio.ofBinary m e).magnitude - more)) ∧
      10 ^ more ≤ n ∧ n ≤ 10 ^ (more + 1) := by
  have last := nearest_of_sixteen (e := e) positive upper
  have bounds (more : ℕ) := coefficient_bounds (e := e) positive more
  unfold shortest
  rw [beq_eq_false_iff_ne.mpr positive.ne']
  generalize (Ratio.ofBinary m e).magnitude = top at *
  simp only [Bool.false_eq_true, if_false]
  let grids (more : ℕ) : Option Scientific :=
    ((Interval.around m e).inUnits (top - more)).nearest?.map (Scientific.ofUnits · (top - more))
  change ∃ more n : ℕ, more ≤ 16 ∧ ((List.range 17).findSome? grids).getD .zero = _ ∧ _
  cases found : (List.range 17).findSome? grids with
  | none =>
    have missed := List.findSome?_eq_none_iff.mp found 16 (by simp)
    rw [Option.map_eq_none_iff] at missed
    exact absurd missed (Option.isSome_iff_ne_none.mp last)
  | some s =>
    obtain ⟨more, listed, found⟩ := List.exists_of_findSome?_eq_some found
    obtain ⟨n, nearest, rfl⟩ := Option.map_eq_some_iff.mp found
    obtain ⟨inside, beside⟩ := nearest_spec nearest
    have few : more ≤ 16 := Nat.lt_succ_iff.mp (List.mem_range.mp listed)
    refine ⟨more, n, few, rfl, (holds_iff positive n).mp inside, ?_⟩
    obtain ⟨low, high⟩ := bounds more
    omega

end Search

end Equate.Decimal
