import Equate.Number.Reading
import Equate.Proofs.Number.Reading
import Equate.Proofs.Number.Shortest

/-!
# Decimals out of range

A decimal far beyond the range of doubles is read as infinity (`ofScientific_of_large`), and one far
below it as zero (`ofScientific_of_small`). So the bounds within which `Number.ofDecimal` reads a
number at all change nothing: it gives what digits with a point give (`ofDecimal_places`).
-/

namespace Equate.Decimal

open Float.Model Float.Model.UnpackedFloat

/-! ### Large numbers -/

theorem mantissa_shiftRight (em : ExtendedMantissa) (n : ℕ) :
    (em >>> n).mantissa = em.mantissa / 2 ^ n := by
  change (n.repeat ExtendedMantissa.shiftRightOne em).mantissa = em.mantissa / 2 ^ n
  induction n with
  | zero => simp [Nat.repeat]
  | succ n ih =>
    rw [Nat.repeat, pow_succ, ← Nat.div_div_eq_div_mul, ← ih]
    rfl

theorem mantissa_le_roundedMantissa (em : ExtendedMantissa) : em.mantissa ≤ em.roundedMantissa := by
  obtain ⟨m, round, sticky⟩ := em
  cases round <;> cases sticky <;> simp [ExtendedMantissa.roundedMantissa,
    ExtendedMantissa.accuracy, Accuracy.roundToNearestEven]

/-- Above the subnormal numbers, a mantissa is never shifted away. -/
theorem shiftToTargetExponent_keeps {m : ℕ} {e : ℤ} (acc : Accuracy) (positive : 0 < m)
    (normal : -1021 ≤ totalExponent m e) :
    let shifted := shiftToTargetExponent .binary64 m e acc
    0 < shifted.1.mantissa ∧ e ≤ shifted.2 ∧ totalExponent m e - 53 ≤ shifted.2 := by
  intro shifted
  let k := (Format.binary64.targetExponent (totalExponent m e) - e).toNat
  have mantissa : shifted.1.mantissa = m / 2 ^ k := by
    change (ExtendedMantissa.ofMantissaAndAccuracy m acc >>> k).mantissa = _
    rw [mantissa_shiftRight]
    rcases acc with _ | (_ | _ | _) <;> rfl
  have exponent : shifted.2 = e + k := rfl
  have count : (k : ℤ) = max (m.log2 - 52) 0 := by
    rw [totalExponent] at normal
    simp only [k, targetExponent_eq, totalExponent]
    omega
  have few : k ≤ m.log2 := by omega
  have power : 2 ^ k ≤ m :=
    (Nat.pow_le_pow_right (by decide) few).trans (Nat.log2_self_le positive.ne')
  refine ⟨mantissa ▸ Nat.div_pos power (by positivity), ?_, ?_⟩
  · omega
  · rw [totalExponent]
    omega

theorem roundWithAccuracy_of_large {m : ℕ} {e : ℤ} (acc : Accuracy) (positive : 0 < m)
    (large : 1025 ≤ totalExponent m e) :
    ∃ M E, ∃ some_left : 0 < M, roundWithAccuracy .binary64 .positive m e acc =
      .finite .positive M E some_left ∧ 972 ≤ E := by
  obtain ⟨first, -, high⟩ := shiftToTargetExponent_keeps (e := e) acc positive (by omega)
  unfold roundWithAccuracy
  generalize shiftToTargetExponent .binary64 m e acc = shifted at first high
  obtain ⟨em, t⟩ := shifted
  have rounded : 0 < em.roundedMantissa := first.trans_le (mantissa_le_roundedMantissa em)
  have normal : -1021 ≤ totalExponent em.roundedMantissa t := by
    rw [totalExponent]
    omega
  obtain ⟨second, higher, -⟩ := shiftToTargetExponent_keeps .exact rounded normal
  dsimp only
  rw [dif_neg second.ne']
  exact ⟨_, _, second, rfl, by omega⟩

theorem pack_of_large {M : ℕ} {E : ℤ} (positive : 0 < M) (large : 972 ≤ E) :
    Float.ofModel (.pack (.finite .positive M E positive)) = 1.0 / 0.0 := by
  have infinity : (1.0 / 0.0 : Float) = .ofModel (.pack (.infinity .positive)) :=
    eq_of_toNat_bits (by decide +kernel)
  have beyond : 2 ^ 11 ≤ (E + 1023 + 52).toNat + 1 := by omega
  have packed : UnpackedFloat.pack .binary64 (.finite .positive M E positive) =
      UnpackedFloat.pack .binary64 (.infinity .positive) := by
    change (if 2 ^ 11 ≤ (E + 1023 + 52).toNat + 1 then _ else _) = _
    rw [if_pos beyond]
    rfl
  rw [infinity]
  apply eq_of_toNat_bits
  exact congrArg BitVec.toNat packed

theorem mul_of_large {a b : ℕ} {ea eb : ℤ} (positiveA : 0 < a) (positiveB : 0 < b)
    (large : 1025 ≤ totalExponent (a * b) (ea + eb)) :
    Float.ofModel (.pack (UnpackedFloat.mul .binary64 (.finite .positive a ea positiveA)
      (.finite .positive b eb positiveB))) = 1.0 / 0.0 := by
  obtain ⟨M, E, positive, rounded, beyond⟩ :=
    roundWithAccuracy_of_large .exact (Nat.mul_pos positiveA positiveB) large
  have product : UnpackedFloat.mul .binary64 (.finite .positive a ea positiveA)
      (.finite .positive b eb positiveB) = .finite .positive M E positive := rounded
  rw [product, pack_of_large positive beyond]

theorem div_of_large {a b n : ℕ} (positiveA : 0 < a) (positiveB : 0 < b) (far : 1024 ≤ n)
    (large : 2 ^ n * b ≤ a) :
    Float.ofModel (.pack (UnpackedFloat.div .binary64 (.finite .positive a 0 positiveA)
      (.finite .positive b 0 positiveB))) = 1.0 / 0.0 := by
  have whole : 2 ^ n ≤ a / b := (Nat.le_div_iff_mul_le positiveB).mpr large
  have positive : 0 < a / b := (Nat.two_pow_pos n).trans_le whole
  have bits : n ≤ (a / b).log2 := (Nat.le_log2 positive.ne').mpr whole
  have wide : b.log2 + n ≤ a.log2 := by
    rw [Nat.le_log2 positiveA.ne', pow_add, mul_comm]
    exact (Nat.mul_le_mul_left _ (Nat.log2_self_le positiveB.ne')).trans large
  have coarse : min ((0 : ℤ) - 0)
      (Format.binary64.targetExponent (totalExponent a 0 - totalExponent b 0)) = 0 := by
    rw [targetExponent_eq]
    simp only [totalExponent]
    omega
  have core : divCore .binary64 a 0 b 0 = (a / b, 0, accuracyOfFraction (a % b) b) := by
    unfold divCore
    rw [coarse]
    rfl
  obtain ⟨M, E, positive', rounded, beyond⟩ :=
    roundWithAccuracy_of_large (e := 0) (accuracyOfFraction (a % b) b) positive (by
      rw [totalExponent]
      omega)
  have quotient : UnpackedFloat.div .binary64 (.finite .positive a 0 positiveA)
      (.finite .positive b 0 positiveB) = .finite .positive M E positive' := by
    unfold UnpackedFloat.div
    dsimp only
    rw [core]
    exact rounded
  rw [quotient, pack_of_large positive' beyond]

/-- A decimal from `10 ^ 400` on is read as infinity. -/
theorem ofScientific_of_large {D k n : ℕ} (far : 400 ≤ n) (large : 10 ^ n * 10 ^ k ≤ D) :
    Float.ofScientific D true k = 1.0 / 0.0 := by
  have power : 2 ^ (3 * n) ≤ 10 ^ n := by
    rw [pow_mul]
    exact Nat.pow_le_pow_left (by decide) n
  have whole : 2 ^ (3 * n) * 10 ^ k ≤ D := (Nat.mul_le_mul_right _ power).trans large
  have enough : 2 ^ (3 * n) ≤ D := (Nat.le_mul_of_pos_right _ (by positivity)).trans whole
  have positive : 0 < D := (Nat.two_pow_pos _).trans_le enough
  have bits : 3 * n ≤ D.log2 := (Nat.le_log2 positive.ne').mpr enough
  have digits : k ≤ D.log2 := by
    rw [Nat.le_log2 positive.ne']
    exact (Nat.pow_le_pow_left (by decide) k).trans
      ((Nat.le_mul_of_pos_left _ (Nat.two_pow_pos _)).trans whole)
  have slow : ¬ (D < 2 ^ 53 ∧ k ≤ 22) := fun small =>
    absurd small.1 (Nat.not_lt.mpr ((Nat.pow_le_pow_right (by decide) (by omega)).trans enough))
  have negated : Int.negOfNat k = -(k : ℤ) := Int.negOfNat_eq
  have high : ¬ (-(k : ℤ) > 2 ^ 11) := by omega
  have low : ¬ (-(k : ℤ) < -((2 ^ 11 : ℤ) + D.log2)) := by omega
  unfold Float.ofScientific
  rw [dif_neg slow]
  change Float.ofModel (.pack (UnpackedFloat.ofScientific .binary64 D (Int.negOfNat k))) = _
  rw [UnpackedFloat.ofScientific, dif_neg positive.ne', negated, if_neg high, if_neg low]
  by_cases point : k = 0
  · subst point
    rw [if_pos (by omega)]
    apply mul_of_large
    have shifted :
        D <<< Format.binary64.mantissaBits * 10 ^ (-((0 : ℕ) : ℤ)).toNat = D * 2 ^ 53 := by
      rw [Nat.shiftLeft_eq]
      exact Nat.mul_one _
    have longer : D.log2 + 53 ≤ (D * 2 ^ 53).log2 := by
      rw [Nat.le_log2 (by positivity), pow_add]
      exact Nat.mul_le_mul_right _ (Nat.log2_self_le positive.ne')
    have scale : (Format.binary64.mantissaBits : ℤ) = 53 := rfl
    rw [shifted, totalExponent, scale]
    omega
  · rw [if_neg (by omega)]
    apply div_of_large (n := 3 * n) _ _ (by omega)
    rw [neg_neg, Int.toNat_natCast]
    exact whole

/-! ### Small numbers -/

/-- What is less than half the least double is rounded to zero. -/
theorem div_of_small {a b n : ℕ} (positiveA : 0 < a) (positiveB : 0 < b) (near : 1080 ≤ n)
    (small : a * 2 ^ n ≤ b) :
    UnpackedFloat.div .binary64 (.finite .positive a 0 positiveA)
      (.finite .positive b 0 positiveB) = .zero .positive := by
  have wide : a.log2 + n ≤ b.log2 := by
    rw [Nat.le_log2 positiveB.ne', pow_add]
    exact (Nat.mul_le_mul_right _ (Nat.log2_self_le positiveA.ne')).trans small
  have fine : min ((0 : ℤ) - 0)
      (Format.binary64.targetExponent (totalExponent a 0 - totalExponent b 0)) = -1074 := by
    rw [targetExponent_eq]
    simp only [totalExponent]
    omega
  have less {j : ℕ} (fewer : j + 1 < n) : 2 * (a <<< j) < b := by
    have steps : 2 ^ (j + 1) < 2 ^ n := Nat.pow_lt_pow_right (by decide) fewer
    rw [Nat.shiftLeft_eq, mul_left_comm, mul_comm 2, ← pow_succ]
    exact (Nat.mul_lt_mul_of_pos_left steps positiveA).trans_le small
  have positive (j : ℕ) : 0 < a <<< j := by
    rw [Nat.shiftLeft_eq]
    exact Nat.mul_pos positiveA (Nat.two_pow_pos j)
  have core : divCore .binary64 a 0 b 0 = (0, -1074, .inexact .lt) := by
    have half := less (j := 1074) (by omega)
    have some_left := positive 1074
    unfold divCore
    rw [fine]
    change ((a <<< 1074) / b, (-1074 : ℤ), accuracyOfFraction ((a <<< 1074) % b) b) = _
    generalize a <<< 1074 = rest at half some_left
    rw [Nat.div_eq_of_lt (by omega), Nat.mod_eq_of_lt (by omega), accuracyOfFraction,
      if_neg some_left.ne', Nat.compare_eq_lt.mpr half]
  unfold UnpackedFloat.div
  dsimp only
  rw [core]
  rfl

theorem ofScientific_zero (k : ℕ) :
    Float.ofScientific 0 true k = .ofModel (.pack (.zero .positive)) := by
  unfold Float.ofScientific
  split
  · rename_i small
    have listed : k < Float.exactlyRepresentablePowersOfTen.size := Nat.lt_succ_of_le small.2
    obtain ⟨b, eb, positiveB, -, unpackB⟩ := unpack_of_isNat (isNat_power_of_ten ⟨k, listed⟩)
    have unpackB' : Float.exactlyRepresentablePowersOfTen[k].toModel.unpack =
        .finite .positive b eb positiveB := unpackB
    have quotient : (Nat.toUInt64 0).toFloat / Float.exactlyRepresentablePowersOfTen[k] =
        .ofModel (.pack (.zero .positive)) := by
      change Float.ofModel ((Nat.toUInt64 0).toFloat /
        Float.exactlyRepresentablePowersOfTen[k]).toModel = _
      rw [toModel_div, unpackB']
      rfl
    exact quotient
  · rfl

/-- A decimal up to `10 ^ -400` is read as zero. -/
theorem ofScientific_of_small {D k n : ℕ} (near : 400 ≤ n) (small : D * 10 ^ n ≤ 10 ^ k) :
    Float.ofScientific D true k = .ofModel (.pack (.zero .positive)) := by
  rcases Nat.eq_zero_or_pos D with rfl | positive
  · exact ofScientific_zero k
  have places : n ≤ k :=
    (Nat.pow_le_pow_iff_right (by decide)).mp ((Nat.le_mul_of_pos_left _ positive).trans small)
  have slow : ¬ (D < 2 ^ 53 ∧ k ≤ 22) := by omega
  have negated : Int.negOfNat k = -(k : ℤ) := Int.negOfNat_eq
  have high : ¬ (-(k : ℤ) > 2 ^ 11) := by omega
  unfold Float.ofScientific
  rw [dif_neg slow]
  change Float.ofModel (.pack (UnpackedFloat.ofScientific .binary64 D (Int.negOfNat k))) = _
  rw [UnpackedFloat.ofScientific, dif_neg positive.ne', negated, if_neg high]
  by_cases low : -(k : ℤ) < -((2 ^ 11 : ℤ) + D.log2)
  · rw [if_pos low]
  · rw [if_neg low, if_neg (by omega)]
    have quotient : D * 2 ^ (3 * n) ≤ 10 ^ (- -(k : ℤ)).toNat := by
      rw [neg_neg, Int.toNat_natCast, pow_mul]
      exact (Nat.mul_le_mul_left _ (Nat.pow_le_pow_left (by decide) n)).trans small
    rw [div_of_small (n := 3 * n) _ _ (by omega) quotient]

/-! ### Whole numbers -/

theorem toModel_mul (x y : Float) :
    (x * y).toModel = .pack (UnpackedFloat.mul .binary64 x.toModel.unpack y.toModel.unpack) := rfl

/-- A whole number in the range of the fast path is exact, multiplied or divided by one. -/
theorem toFloat_mul_one {D : ℕ} (small : D < 2 ^ 53) :
    D.toUInt64.toFloat * Float.exactlyRepresentablePowersOfTen[0] =
      D.toUInt64.toFloat / Float.exactlyRepresentablePowersOfTen[0] := by
  rcases Nat.eq_zero_or_pos D with rfl | positive
  · exact eq_of_toNat_bits (by decide +kernel)
  obtain ⟨M, E, lower, upper, least, -, value, -⟩ := round_nat positive small
  obtain ⟨a, ea, several, valueA, double⟩ := ofFloat_toFloat positive small
  obtain ⟨b, eb, positiveB, valueB, unpackB⟩ := unpack_of_isNat (isNat_power_of_ten ⟨0, by decide⟩)
  have positiveA : 0 < a := by omega
  have unpackA : D.toUInt64.toFloat.toModel.unpack = .finite .positive a ea positiveA := by
    rw [unpack_toModel, double, Double.unpacked, dif_pos positiveA]
    rfl
  have unpackB' : Float.exactlyRepresentablePowersOfTen[0].toModel.unpack =
      .finite .positive b eb positiveB := unpackB
  have near := near_self M E
  rw [← value] at near
  have quotient := fast_of_near (k := 0) positive lower upper least
    (by rwa [pow_zero, div_one]) small (by decide)
  have exact_product : ((a * b : ℕ) : ℚ) * 2 ^ (ea + eb) = D := by
    rw [zpow_add₀ two_ne_zero, Nat.cast_mul, mul_mul_mul_comm, valueA, valueB]
    exact mul_one _
  rw [← exact_product] at near
  have enough : 2 ^ 52 ≤ a * b := several.trans (Nat.le_mul_of_pos_right a positiveB)
  have product := mul_of_near positiveA positiveB enough lower upper least near
  rw [quotient]
  change Float.ofModel (D.toUInt64.toFloat * Float.exactlyRepresentablePowersOfTen[0]).toModel = _
  rw [toModel_mul, unpackA, unpackB', product]

/-- A whole number is read alike with a positive and with a negative power of ten. -/
theorem ofScientific_whole (D : ℕ) :
    Float.ofScientific D false 0 = Float.ofScientific D true 0 := by
  unfold Float.ofScientific
  by_cases small : D < 2 ^ 53
  · have fast : D < 2 ^ 53 ∧ 0 ≤ 22 := ⟨small, by decide⟩
    rw [dif_pos fast, dif_pos fast]
    exact toFloat_mul_one small
  · rw [dif_neg (fun fast => small fast.1), dif_neg (fun fast => small fast.1)]
    rfl

/-! ### The bounds of reading -/

/-- A number with places after the point is read as a literal of an expression is. -/
theorem ofDecimal_places (D k : ℕ) :
    Number.ofDecimal false D (-(k : ℤ)) = Float.ofScientific D true k := by
  have zero : (0.0 : Float) = .ofModel (.pack (.zero .positive)) := ofScientific_zero 1
  unfold Number.ofDecimal
  simp only [Bool.false_eq_true, if_false]
  rcases Nat.eq_zero_or_pos D with rfl | positive
  · rw [if_pos (by simp), zero, ofScientific_zero]
  obtain ⟨some_digit, low, high⟩ := digitCount_bounds positive
  generalize digitCount D = count at some_digit low high
  split
  · rename_i tiny
    have few : (count : ℤ) + -k < -400 := by simpa [positive.ne'] using tiny
    have small : D * 10 ^ (k - count) ≤ 10 ^ k :=
      calc D * 10 ^ (k - count)
        _ ≤ 10 ^ count * 10 ^ (k - count) := Nat.mul_le_mul_right _ high.le
        _ = 10 ^ k := by rw [← pow_add, Nat.add_sub_cancel' (by omega)]
    rw [zero, ofScientific_of_small (by omega) small]
  split
  · rename_i huge
    have large : 10 ^ (count - 1 - k) * 10 ^ k ≤ D := by
      rw [← pow_add, Nat.sub_add_cancel (by omega)]
      exact low
    rw [ofScientific_of_large (by omega) large]
  split
  · rw [Int.natAbs_neg, Int.natAbs_natCast]
  · have point : k = 0 := by omega
    subst point
    exact ofScientific_whole D

end Equate.Decimal
