import Mathlib.Algebra.Order.Field.Power
import Mathlib.Algebra.Order.Field.Rat
import Mathlib.Tactic.FieldSimp
import Mathlib.Tactic.Linarith
import Mathlib.Tactic.NormNum
import Mathlib.Tactic.Positivity
import Mathlib.Tactic.Ring

/-!
# Rounding to doubles

The doubles of the logic are rounded with a mantissa and two residual bits. `Represents` gives the
exact number that these stand for, and shifting keeps it. `roundWithAccuracy_of_near`: a number
between the halfway points around a double is rounded to that double.
-/

namespace Equate.Decimal

open Float.Model Float.Model.UnpackedFloat

/-! ### Residual bits -/

/-- The numbers that a mantissa with its residual bits stands for. -/
def Represents (em : ExtendedMantissa) (y : ℚ) : Prop :=
  match em.roundBit, em.stickyBit with
  | false, false => y = em.mantissa
  | false, true => em.mantissa < y ∧ y < em.mantissa + 1 / 2
  | true, false => y = em.mantissa + 1 / 2
  | true, true => em.mantissa + 1 / 2 < y ∧ y < em.mantissa + 1

theorem Represents.exact_or {em : ExtendedMantissa} {y : ℚ} (rep : Represents em y) :
    (em.roundBit || em.stickyBit) = false ∧ y = em.mantissa ∨
      (em.roundBit || em.stickyBit) = true ∧ em.mantissa < y ∧ y < em.mantissa + 1 := by
  obtain ⟨m, round, sticky⟩ := em
  cases round <;> cases sticky <;> simp only [Represents] at rep
  · exact Or.inl ⟨rfl, rep⟩
  · exact Or.inr ⟨rfl, rep.1, by linarith⟩
  · exact Or.inr ⟨rfl, by linarith, by linarith⟩
  · exact Or.inr ⟨rfl, by linarith, rep.2⟩

theorem Represents.bounds {em : ExtendedMantissa} {y : ℚ} (rep : Represents em y) :
    em.mantissa ≤ y ∧ y < em.mantissa + 1 := by
  rcases rep.exact_or with ⟨-, rfl⟩ | ⟨-, above, below⟩
  · exact ⟨le_refl _, lt_add_one _⟩
  · exact ⟨above.le, below⟩

theorem represents_exact (m : ℕ) : Represents (.ofMantissaAndAccuracy m .exact) m := rfl

theorem represents_quotient (a : ℕ) {b : ℕ} (positive : 0 < b) :
    Represents (.ofMantissaAndAccuracy (a / b) (accuracyOfFraction (a % b) b)) (a / b : ℚ) := by
  have split : ((a / b : ℕ) : ℚ) * b + (a % b : ℕ) = a := by exact_mod_cast Nat.div_add_mod' a b
  have positive' : (0 : ℚ) < b := by exact_mod_cast positive
  have rest : ((a % b : ℕ) : ℚ) < b := by exact_mod_cast Nat.mod_lt a positive
  rw [accuracyOfFraction]
  by_cases none_left : a % b = 0
  · rw [if_pos none_left]
    change (a : ℚ) / b = (a / b : ℕ)
    rw [div_eq_iff positive'.ne', ← split, none_left, Nat.cast_zero, add_zero]
  · rw [if_neg none_left]
    have some_left : (0 : ℚ) < (a % b : ℕ) := by exact_mod_cast Nat.pos_of_ne_zero none_left
    rcases lt_trichotomy (2 * (a % b)) b with below | half | above
    · rw [Nat.compare_eq_lt.mpr below]
      have below' : (2 * (a % b : ℕ) : ℚ) < b := by exact_mod_cast below
      change ((a / b : ℕ) : ℚ) < a / b ∧ (a : ℚ) / b < (a / b : ℕ) + 1 / 2
      rw [lt_div_iff₀ positive', div_lt_iff₀ positive']
      constructor <;> linarith
    · rw [Nat.compare_eq_eq.mpr half]
      have half' : (2 * (a % b : ℕ) : ℚ) = b := by exact_mod_cast half
      change (a : ℚ) / b = (a / b : ℕ) + 1 / 2
      rw [div_eq_iff positive'.ne']
      linarith
    · rw [Nat.compare_eq_gt.mpr above]
      have above' : (b : ℚ) < (2 * (a % b : ℕ) : ℚ) := by exact_mod_cast above
      change ((a / b : ℕ) : ℚ) + 1 / 2 < a / b ∧ (a : ℚ) / b < (a / b : ℕ) + 1
      rw [lt_div_iff₀ positive', div_lt_iff₀ positive']
      constructor <;> linarith

theorem Represents.shiftRightOne {em : ExtendedMantissa} {y : ℚ} (rep : Represents em y) :
    Represents em.shiftRightOne (y / 2) := by
  have split : (2 * (em.mantissa / 2 : ℕ) + (em.mantissa % 2 : ℕ) : ℚ) = em.mantissa := by
    exact_mod_cast Nat.div_add_mod em.mantissa 2
  have parity := Nat.mod_two_eq_zero_or_one em.mantissa
  -- the last bit becomes the round bit, and the bits that were residual become one
  rcases rep.exact_or with ⟨exact, value⟩ | ⟨inexact, above, below⟩
  · rcases parity with even | odd
    · rw [even] at split
      simp only [Represents, ExtendedMantissa.shiftRightOne, exact, even]
      change y / 2 = (em.mantissa / 2 : ℕ)
      push_cast at split
      linarith
    · rw [odd] at split
      simp only [Represents, ExtendedMantissa.shiftRightOne, exact, odd]
      change y / 2 = (em.mantissa / 2 : ℕ) + 1 / 2
      push_cast at split
      linarith
  · rcases parity with even | odd
    · rw [even] at split
      simp only [Represents, ExtendedMantissa.shiftRightOne, inexact, even]
      change (em.mantissa / 2 : ℕ) < y / 2 ∧ y / 2 < (em.mantissa / 2 : ℕ) + 1 / 2
      push_cast at split
      constructor <;> linarith
    · rw [odd] at split
      simp only [Represents, ExtendedMantissa.shiftRightOne, inexact, odd]
      change (em.mantissa / 2 : ℕ) + 1 / 2 < y / 2 ∧ y / 2 < (em.mantissa / 2 : ℕ) + 1
      push_cast at split
      constructor <;> linarith

theorem Represents.shiftRight {em : ExtendedMantissa} {y : ℚ} (rep : Represents em y) (n : ℕ) :
    Represents (em >>> n) (y / 2 ^ n) := by
  change Represents (n.repeat ExtendedMantissa.shiftRightOne em) (y / 2 ^ n)
  induction n with
  | zero => simpa [Nat.repeat] using rep
  | succ n ih =>
    rw [Nat.repeat, pow_succ, ← div_div]
    exact ih.shiftRightOne

/-! ### Rounding a mantissa -/

/-- Whether a number rounds to a natural number: it is at most half away, and less than that if the
natural number is odd. -/
def RoundsTo (y : ℚ) (n : ℕ) : Prop :=
  (n : ℚ) - 1 / 2 ≤ y ∧ y ≤ n + 1 / 2 ∧ (n % 2 = 1 → (n : ℚ) - 1 / 2 < y ∧ y < n + 1 / 2)

theorem Represents.roundedMantissa {em : ExtendedMantissa} {y : ℚ} {n : ℕ}
    (rep : Represents em y) (rounds : RoundsTo y n) : em.roundedMantissa = n := by
  obtain ⟨below, above, strict⟩ := rounds
  obtain ⟨least, most⟩ := rep.bounds
  have cases_n : n = em.mantissa ∨ n = em.mantissa + 1 := by
    have lower : (em.mantissa : ℚ) < n + 1 := by linarith
    have upper : (n : ℚ) < em.mantissa + 2 := by linarith
    have lower' : em.mantissa < n + 1 := by exact_mod_cast lower
    have upper' : n < em.mantissa + 2 := by exact_mod_cast upper
    omega
  obtain ⟨m, round, sticky⟩ := em
  simp only [Represents] at rep cases_n
  cases round with
  | false =>
    have kept : n = m := by
      rcases cases_n with same | rfl
      · exact same
      · push_cast at below
        cases sticky <;> simp only at rep <;> linarith
    rw [kept]
    cases sticky <;> rfl
  | true =>
    cases sticky with
    | false =>
      change m + m % 2 = n
      rcases cases_n with rfl | rfl
      · have even : n % 2 ≠ 1 := fun odd => by linarith [(strict odd).2]
        omega
      · have even : (m + 1) % 2 ≠ 1 := fun odd => by
          have strictly := (strict odd).1
          push_cast at strictly
          linarith
        omega
    | true =>
      rcases cases_n with rfl | rfl
      · linarith [rep.1]
      · rfl

/-! ### Powers of two -/

/-- A power as a quotient of powers with natural exponents, one of which is zero. -/
theorem zpow_eq_div (b : ℚ) (e : ℤ) : b ^ e = b ^ e.toNat / b ^ (-e).toNat := by
  rcases le_total 0 e with up | down
  · rw [Int.toNat_of_nonpos (by omega : -e ≤ 0), pow_zero, div_one, ← zpow_natCast,
      Int.toNat_of_nonneg up]
  · rw [Int.toNat_of_nonpos down, pow_zero, one_div, ← zpow_natCast,
      Int.toNat_of_nonneg (by omega : 0 ≤ -e), ← zpow_neg, neg_neg]

theorem two_zpow_bounds {m : ℕ} (positive : m ≠ 0) {y : ℚ} (least : (m : ℚ) ≤ y)
    (most : y < m + 1) : (2 : ℚ) ^ (m.log2 : ℤ) ≤ y ∧ y < 2 ^ ((m.log2 : ℤ) + 1) := by
  have low : 2 ^ m.log2 ≤ m := Nat.log2_self_le positive
  have high : m + 1 ≤ 2 ^ (m.log2 + 1) := Nat.lt_log2_self
  have low' : ((2 : ℚ) ^ m.log2) ≤ m := by exact_mod_cast low
  have high' : (m : ℚ) + 1 ≤ 2 ^ (m.log2 + 1) := by exact_mod_cast high
  constructor
  · rw [zpow_natCast]
    linarith
  · rw [show (m.log2 : ℤ) + 1 = (m.log2 + 1 : ℕ) from rfl, zpow_natCast]
    linarith

/-- Two powers of two that are next below a number are the same. -/
theorem eq_of_two_zpow {a b : ℤ} {x : ℚ} (lowA : (2 : ℚ) ^ a ≤ x) (highA : x < 2 ^ (a + 1))
    (lowB : (2 : ℚ) ^ b ≤ x) (highB : x < 2 ^ (b + 1)) : a = b := by
  have first : a < b + 1 := (zpow_lt_zpow_iff_right₀ one_lt_two).mp (lowA.trans_lt highB)
  have second : b < a + 1 := (zpow_lt_zpow_iff_right₀ one_lt_two).mp (lowB.trans_lt highA)
  omega

/-! ### Rounding to a double -/

theorem targetExponent_eq (t : ℤ) : Format.binary64.targetExponent t = max (t - 53) (-1074) := by
  rfl

/-- How far below `m · 2 ^ e` the halfway point is, in units of `2 ^ e`: a power of two has its
lower neighbour nearer, unless that is subnormal. -/
def gapBelow (m : ℕ) (e : ℤ) : ℚ := if m = 2 ^ 52 ∧ -1074 < e then 1 / 4 else 1 / 2

/-- Whether a number is between the halfway points around `m · 2 ^ e`. If the mantissa is odd it is
none of these points. -/
def Near (m : ℕ) (e : ℤ) (x : ℚ) : Prop :=
  (m : ℚ) - gapBelow m e ≤ x / 2 ^ e ∧ x / 2 ^ e ≤ m + 1 / 2 ∧
    (m % 2 = 1 → (m : ℚ) - 1 / 2 < x / 2 ^ e ∧ x / 2 ^ e < m + 1 / 2)

theorem gapBelow_cases (m : ℕ) (e : ℤ) : gapBelow m e = 1 / 4 ∨ gapBelow m e = 1 / 2 := by
  unfold gapBelow
  split
  · exact Or.inl rfl
  · exact Or.inr rfl

theorem gapBelow_of_odd {m : ℕ} (odd : m % 2 = 1) (e : ℤ) : gapBelow m e = 1 / 2 := by
  rw [gapBelow, if_neg]
  rintro ⟨rfl, -⟩
  cases odd

/-- The first shift of rounding brings a mantissa with enough bits to 53 bits. -/
theorem shiftToTargetExponent_of_bounds {m : ℕ} {e t : ℤ} {acc : Accuracy} {y : ℚ}
    (rep : Represents (.ofMantissaAndAccuracy m acc) y) (enough : 2 ^ 52 ≤ y) (normal : -1074 ≤ t)
    (low : (2 : ℚ) ^ (52 + t) ≤ y * 2 ^ e) (high : y * 2 ^ e < (2 : ℚ) ^ (53 + t)) :
    ∃ em, shiftToTargetExponent .binary64 m e acc = (em, t) ∧
      Represents em (y * 2 ^ e / 2 ^ t) := by
  have mantissa : (ExtendedMantissa.ofMantissaAndAccuracy m acc).mantissa = m := by
    rcases acc with _ | (_ | _ | _) <;> rfl
  obtain ⟨least, most⟩ := rep.bounds
  rw [mantissa] at least most
  have positive : m ≠ 0 := by
    rintro rfl
    norm_num at most
    linarith
  obtain ⟨lowY, highY⟩ := two_zpow_bounds positive least most
  have scale : (0 : ℚ) < 2 ^ e := by positivity
  have size : (m.log2 : ℤ) + e = 52 + t := by
    apply eq_of_two_zpow _ _ low
    · convert high using 2
      ring
    · rw [zpow_add₀ two_ne_zero]
      exact mul_le_mul_of_nonneg_right lowY scale.le
    · rw [show (m.log2 : ℤ) + e + 1 = (m.log2 + 1 : ℤ) + e by ring, zpow_add₀ two_ne_zero]
      exact mul_lt_mul_of_pos_right highY scale
  have bits : (52 : ℤ) < m.log2 + 1 := by
    apply (zpow_lt_zpow_iff_right₀ (one_lt_two (α := ℚ))).mp
    exact lt_of_le_of_lt (by exact_mod_cast enough) highY
  have target : Format.binary64.targetExponent (totalExponent m e) = t := by
    rw [targetExponent_eq, totalExponent]
    omega
  have shift : (((t - e).toNat : ℕ) : ℤ) = t - e := Int.toNat_of_nonneg (by omega)
  refine ⟨ExtendedMantissa.ofMantissaAndAccuracy m acc >>> (t - e).toNat, ?_, ?_⟩
  · rw [shiftToTargetExponent, target, shiftToExponent, shift, show e + (t - e) = t by ring]
  · have scaled : y * 2 ^ e / 2 ^ t = y / 2 ^ (t - e).toNat := by
      rw [← zpow_natCast, shift, zpow_sub₀ two_ne_zero]
      field_simp
    rw [scaled]
    exact rep.shiftRight _

theorem shiftToTargetExponent_exact {m n : ℕ} {e t : ℤ} (enough : 2 ^ 52 ≤ m)
    (value : (m : ℚ) * 2 ^ e = n * 2 ^ t) (lower : 2 ^ 52 ≤ n) (upper : n < 2 ^ 53)
    (normal : -1074 ≤ t) :
    ∃ em, shiftToTargetExponent .binary64 m e .exact = (em, t) ∧ em.mantissa = n := by
  have scale : (0 : ℚ) < 2 ^ t := by positivity
  have lower' : (2 : ℚ) ^ (52 : ℤ) ≤ n := by exact_mod_cast lower
  have upper' : (n : ℚ) < 2 ^ (53 : ℤ) := by exact_mod_cast upper
  obtain ⟨em, shifted, rep⟩ := shiftToTargetExponent_of_bounds (represents_exact m)
    (by exact_mod_cast enough) normal
    (by rw [value, zpow_add₀ two_ne_zero]; exact mul_le_mul_of_nonneg_right lower' scale.le)
    (by rw [value, zpow_add₀ two_ne_zero]; exact mul_lt_mul_of_pos_right upper' scale)
  refine ⟨em, shifted, ?_⟩
  rw [value, mul_div_cancel_right₀ _ scale.ne'] at rep
  obtain ⟨least, most⟩ := rep.bounds
  have least' : em.mantissa ≤ n := by exact_mod_cast least
  have most' : n < em.mantissa + 1 := by exact_mod_cast most
  omega

theorem roundWithAccuracy_eq {m M R : ℕ} {e e' E : ℤ} {acc : Accuracy} {em em' : ExtendedMantissa}
    (first : shiftToTargetExponent .binary64 m e acc = (em, e')) (rounded : em.roundedMantissa = R)
    (second : shiftToTargetExponent .binary64 R e' .exact = (em', E)) (mantissa : em'.mantissa = M)
    (positive : 0 < M) :
    roundWithAccuracy .binary64 .positive m e acc = .finite .positive M E positive := by
  subst rounded mantissa
  unfold roundWithAccuracy
  rw [first]
  dsimp only
  rw [second]
  exact dif_neg positive.ne'

theorem pos_of_normal {M : ℕ} (lower : 2 ^ 52 ≤ M) : 0 < M := by omega

/-- Rounding at an exponent where the number has 53 bits, which may carry into one more. -/
theorem roundWithAccuracy_of_roundsTo {m M R : ℕ} {e E t : ℤ} {acc : Accuracy} {y z : ℚ}
    (rep : Represents (.ofMantissaAndAccuracy m acc) y) (enough : 2 ^ 52 ≤ y)
    (value : y * 2 ^ e = z * 2 ^ t) (low : 2 ^ 52 ≤ z) (high : z < 2 ^ 53) (normal : -1074 ≤ t)
    (rounds : RoundsTo z R) (several : 2 ^ 52 ≤ R) (carried : (R : ℚ) * 2 ^ t = M * 2 ^ E)
    (lower : 2 ^ 52 ≤ M) (upper : M < 2 ^ 53) (normal' : -1074 ≤ E) :
    roundWithAccuracy .binary64 .positive m e acc =
      .finite .positive M E (pos_of_normal lower) := by
  have scale : (0 : ℚ) < 2 ^ t := by positivity
  have low' : (2 : ℚ) ^ (52 + t) ≤ y * 2 ^ e := by
    rw [value, zpow_add₀ two_ne_zero]
    exact mul_le_mul_of_nonneg_right (by exact_mod_cast low) scale.le
  have high' : y * 2 ^ e < (2 : ℚ) ^ (53 + t) := by
    rw [value, zpow_add₀ two_ne_zero]
    exact mul_lt_mul_of_pos_right (by exact_mod_cast high) scale
  obtain ⟨em, first, rep'⟩ := shiftToTargetExponent_of_bounds rep enough normal low' high'
  rw [value, mul_div_cancel_right₀ _ scale.ne'] at rep'
  obtain ⟨em', second, mantissa⟩ :=
    shiftToTargetExponent_exact several carried lower upper normal'
  exact roundWithAccuracy_eq first (rep'.roundedMantissa rounds) second mantissa _

theorem roundWithAccuracy_of_near {m M : ℕ} {e E : ℤ} {acc : Accuracy} {y : ℚ}
    (rep : Represents (.ofMantissaAndAccuracy m acc) y) (enough : 2 ^ 52 ≤ y)
    (lower : 2 ^ 52 ≤ M) (upper : M < 2 ^ 53) (normal : -1074 < E)
    (near : Near M E (y * 2 ^ e)) :
    roundWithAccuracy .binary64 .positive m e acc =
      .finite .positive M E (pos_of_normal lower) := by
  obtain ⟨below, above, strict⟩ := near
  have scale : (0 : ℚ) < 2 ^ E := by positivity
  have value : y * 2 ^ e = y * 2 ^ e / 2 ^ E * 2 ^ E := (div_mul_cancel₀ _ scale.ne').symm
  generalize y * 2 ^ e / 2 ^ E = z at below above strict value
  have upper' : (M : ℚ) + 1 ≤ 2 ^ 53 := by exact_mod_cast upper
  rcases le_or_gt (2 ^ 52) z with inside | outside
  · have rounds : RoundsTo z M := by
      refine ⟨?_, above, strict⟩
      rcases gapBelow_cases M E with gap | gap <;> linarith
    exact roundWithAccuracy_of_roundsTo rep enough value inside (by linarith) normal.le rounds lower
      rfl lower upper normal.le
  · -- below a power of two there is one bit more, and rounding carries into it
    have power : M = 2 ^ 52 := by
      by_contra other
      rw [gapBelow, if_neg (fun both => other both.1)] at below
      have larger : 2 ^ 52 + 1 ≤ M := by omega
      have larger' : (2 : ℚ) ^ 52 + 1 ≤ M := by exact_mod_cast larger
      linarith
    subst power
    rw [gapBelow, if_pos ⟨rfl, normal⟩] at below
    push_cast at below
    norm_num at below outside
    have doubled : (2 : ℚ) ^ E = 2 * 2 ^ (E - 1) := by
      rw [zpow_sub_one₀ two_ne_zero]
      ring
    have value' : y * 2 ^ e = 2 * z * 2 ^ (E - 1) := by
      rw [value, doubled]
      ring
    have rounds : RoundsTo (2 * z) (2 ^ 53) := by
      refine ⟨by norm_num; linarith, by norm_num; linarith, fun odd => ?_⟩
      norm_num at odd
    have carried : ((2 ^ 53 : ℕ) : ℚ) * 2 ^ (E - 1) = (2 ^ 52 : ℕ) * 2 ^ E := by
      push_cast
      rw [doubled]
      ring
    exact roundWithAccuracy_of_roundsTo rep enough value' (by norm_num; linarith)
      (by norm_num; linarith) (by omega) rounds (by norm_num) carried le_rfl (by norm_num) normal.le

/-! ### Quotients and products -/

theorem Near.lower {M : ℕ} {E : ℤ} {x : ℚ} (near : Near M E x) (lower : 2 ^ 52 ≤ M) :
    (2 : ℚ) ^ 51 ≤ x / 2 ^ E := by
  have lower' : (2 : ℚ) ^ 52 ≤ M := by exact_mod_cast lower
  have below := near.1
  rcases gapBelow_cases M E with gap | gap <;> linarith

theorem two_zpow_le_quotient {a b : ℕ} (ea eb : ℤ) (positiveA : 0 < a) (positiveB : 0 < b) :
    (2 : ℚ) ^ (totalExponent a ea - totalExponent b eb - 1) ≤ a * 2 ^ ea / (b * 2 ^ eb) := by
  have lowA := (two_zpow_bounds positiveA.ne' (le_refl (a : ℚ)) (lt_add_one _)).1
  have highB := (two_zpow_bounds positiveB.ne' (le_refl (b : ℚ)) (lt_add_one _)).2
  have scaleA : (0 : ℚ) < 2 ^ ea := by positivity
  have scaleB : (0 : ℚ) < 2 ^ eb := by positivity
  have positiveB' : (0 : ℚ) < b := by exact_mod_cast positiveB
  have power : (0 : ℚ) < 2 ^ (totalExponent a ea - totalExponent b eb - 1) := by positivity
  rw [le_div_iff₀ (by positivity)]
  calc (2 : ℚ) ^ (totalExponent a ea - totalExponent b eb - 1) * (b * 2 ^ eb)
    _ ≤ 2 ^ (totalExponent a ea - totalExponent b eb - 1) * (2 ^ ((b.log2 : ℤ) + 1) * 2 ^ eb) := by
      gcongr
    _ = 2 ^ (a.log2 : ℤ) * 2 ^ ea := by
      rw [← zpow_add₀ two_ne_zero, ← zpow_add₀ two_ne_zero, ← zpow_add₀ two_ne_zero]
      congr 1
      simp only [totalExponent]
      ring
    _ ≤ a * 2 ^ ea := by gcongr

/-- A quotient is computed with at least as many bits as the target has. -/
theorem div_of_near {a b M : ℕ} {ea eb E : ℤ} (positiveA : 0 < a) (positiveB : 0 < b)
    (lower : 2 ^ 52 ≤ M) (upper : M < 2 ^ 53) (normal : -1074 < E)
    (near : Near M E ((a : ℚ) * 2 ^ ea / (b * 2 ^ eb))) :
    UnpackedFloat.div .binary64 (.finite .positive a ea positiveA)
        (.finite .positive b eb positiveB) = .finite .positive M E (pos_of_normal lower) := by
  let L := totalExponent a ea - totalExponent b eb
  let t := min (ea - eb) (Format.binary64.targetExponent L)
  have coarse : t ≤ ea - eb := Int.min_le_left ..
  have shift : (((ea - eb - t).toNat : ℕ) : ℤ) = ea - eb - t := Int.toNat_of_nonneg (by omega)
  have core : divCore .binary64 a ea b eb = (a <<< (ea - eb - t).toNat / b, t,
    accuracyOfFraction (a <<< (ea - eb - t).toNat % b) b) := rfl
  have rep := represents_quotient (a <<< (ea - eb - t).toNat) positiveB
  have positiveA' : (0 : ℚ) < a := by exact_mod_cast positiveA
  have positiveB' : (0 : ℚ) < b := by exact_mod_cast positiveB
  have value : ((a <<< (ea - eb - t).toNat : ℕ) / b : ℚ) * 2 ^ t =
      a * 2 ^ ea / (b * 2 ^ eb) := by
    rw [Nat.shiftLeft_eq]
    push_cast
    rw [← zpow_natCast, shift, zpow_sub₀ two_ne_zero, zpow_sub₀ two_ne_zero]
    field_simp
  rw [← value] at near
  have enough : (2 : ℚ) ^ 52 ≤ (a <<< (ea - eb - t).toNat : ℕ) / b := by
    have target : t ≤ max (L - 53) (-1074) := Int.min_le_right ..
    have scale : (0 : ℚ) < 2 ^ t := by positivity
    apply le_of_mul_le_mul_right _ scale
    rw [value, ← zpow_natCast, ← zpow_add₀ two_ne_zero]
    rcases le_total (-1074) (L - 53) with wide | narrow
    · refine le_trans ?_ (two_zpow_le_quotient ea eb positiveA positiveB)
      apply zpow_le_zpow_right₀ one_le_two
      push_cast
      omega
    · -- so small a quotient is one of small doubles, whose size is known
      have least := near.lower lower
      rw [value, le_div_iff₀ (by positivity), ← zpow_natCast, ← zpow_add₀ two_ne_zero] at least
      refine le_trans ?_ least
      apply zpow_le_zpow_right₀ one_le_two
      push_cast
      omega
  unfold UnpackedFloat.div
  dsimp only
  rw [core]
  exact roundWithAccuracy_of_near rep enough lower upper normal near

theorem mul_of_near {a b M : ℕ} {ea eb E : ℤ} (positiveA : 0 < a) (positiveB : 0 < b)
    (enough : 2 ^ 52 ≤ a * b) (lower : 2 ^ 52 ≤ M) (upper : M < 2 ^ 53) (normal : -1074 < E)
    (near : Near M E ((a * b : ℕ) * 2 ^ (ea + eb))) :
    UnpackedFloat.mul .binary64 (.finite .positive a ea positiveA)
        (.finite .positive b eb positiveB) = .finite .positive M E (pos_of_normal lower) :=
  roundWithAccuracy_of_near (represents_exact (a * b)) (by exact_mod_cast enough) lower upper normal
    near

theorem near_self (M : ℕ) (E : ℤ) : Near M E (M * 2 ^ E) := by
  unfold Near
  rw [mul_div_cancel_right₀ _ (by positivity)]
  refine ⟨?_, ?_, fun _ => ⟨?_, ?_⟩⟩
  · rcases gapBelow_cases M E with gap | gap <;> linarith
  all_goals linarith

/-- A natural number with no more than 53 bits is a double. -/
theorem round_nat {n : ℕ} (positive : 0 < n) (small : n < 2 ^ 53) :
    ∃ M : ℕ, ∃ E : ℤ, ∃ lower : 2 ^ 52 ≤ M, M < 2 ^ 53 ∧ -1074 < E ∧ E ≤ 0 ∧ (n : ℚ) = M * 2 ^ E ∧
      UnpackedFloat.round .binary64 .positive n 0 =
        .finite .positive M E (pos_of_normal lower) := by
  have low : 2 ^ n.log2 ≤ n := Nat.log2_self_le positive.ne'
  have high : n < 2 ^ (n.log2 + 1) := Nat.lt_log2_self
  have bits : n.log2 < 53 := (Nat.pow_lt_pow_iff_right (by norm_num)).mp (low.trans_lt small)
  let k := 52 - n.log2
  have lower : 2 ^ 52 ≤ n <<< k := by
    rw [Nat.shiftLeft_eq, show 52 = n.log2 + k by omega, pow_add]
    exact Nat.mul_le_mul_right _ low
  have upper : n <<< k < 2 ^ 53 := by
    rw [Nat.shiftLeft_eq, show 53 = n.log2 + 1 + k by omega, pow_add]
    exact Nat.mul_lt_mul_of_pos_right high (by positivity)
  have value : (n : ℚ) = (n <<< k : ℕ) * 2 ^ (-k : ℤ) := by
    rw [Nat.shiftLeft_eq, zpow_neg, zpow_natCast]
    push_cast
    field_simp
  refine ⟨n <<< k, -k, lower, upper, by omega, by omega, value, ?_⟩
  have target : Format.binary64.targetExponent (totalExponent n 0) = -k := by
    rw [targetExponent_eq, totalExponent]
    omega
  have decreased : decreaseExponent n 0 (-k) = (n <<< k, (-k : ℤ)) := by
    simp [decreaseExponent]
  unfold UnpackedFloat.round
  dsimp only
  rw [target, decreased]
  exact roundWithAccuracy_of_near (represents_exact _) (by exact_mod_cast lower) lower upper
    (by omega) (near_self _ _)

end Equate.Decimal
