import Equate.Proofs.Number.Doubles
import Equate.Proofs.Number.Rounding
import Equate.Token.Scan

/-!
# Reading decimals

`ofScientific_of_near`: a decimal between the halfway points around a double is read as that double,
whether a single division of doubles gives it or the long way has to be taken. Digits never give a
negative number, nor one that is none (`ofScientific_unsigned`).
-/

namespace Equate.Decimal

open Float.Model Float.Model.UnpackedFloat

/-! ### Operands of the fast path -/

theorem toModel_div (x y : Float) :
    (x / y).toModel = .pack (UnpackedFloat.div .binary64 x.toModel.unpack y.toModel.unpack) := rfl

def Double.isNat (n : Nat) : Double → Bool
  | finite false m e => 0 < m && m * 2 ^ e.toNat == n * 2 ^ (-e).toNat
  | _ => false

theorem unpack_of_isNat {x : Float} {n : Nat} (whole : (Double.ofFloat x).isNat n = true) :
    ∃ (m : ℕ) (e : ℤ) (positive : 0 < m), (m : ℚ) * 2 ^ e = n ∧
      x.toModel.unpack = .finite .positive m e positive := by
  rw [unpack_toModel]
  generalize Double.ofFloat x = d at whole ⊢
  match d, whole with
  | .finite false m e, whole =>
    obtain ⟨positive, equal⟩ : 0 < m ∧ m * 2 ^ e.toNat = n * 2 ^ (-e).toNat := by
      simpa [Double.isNat] using whole
    have equal' : (m : ℚ) * 2 ^ e.toNat = n * 2 ^ (-e).toNat := by exact_mod_cast equal
    refine ⟨m, e, positive, ?_, by rw [Double.unpacked, dif_pos positive]; rfl⟩
    rw [zpow_eq_div, ← mul_div_assoc, equal', mul_div_cancel_right₀ _ (by positivity)]

theorem isNat_power_of_ten : ∀ k : Fin Float.exactlyRepresentablePowersOfTen.size,
    (Double.ofFloat Float.exactlyRepresentablePowersOfTen[k]).isNat (10 ^ (k : Nat)) = true := by
  decide +kernel

theorem ofFloat_toFloat {n : Nat} (positive : 0 < n) (small : n < 2 ^ 53) :
    ∃ (m : ℕ) (e : ℤ), 2 ^ 52 ≤ m ∧ (m : ℚ) * 2 ^ e = n ∧
      Double.ofFloat n.toUInt64.toFloat = .finite false m e := by
  obtain ⟨m, e, lower, upper, least, most, value, rounded⟩ := round_nat positive small
  refine ⟨m, e, lower, value.symm, ?_⟩
  have same : n.toUInt64.toNat = n := by
    rw [Nat.toUInt64_eq, UInt64.toNat_ofNat', Nat.mod_eq_of_lt (by omega)]
  have result : n.toUInt64.toFloat =
      .ofModel (.pack (.finite .positive m e (pos_of_normal lower))) := by
    change Float.ofModel
      (.pack (UnpackedFloat.normalize .binary64 n.toUInt64.toNat 0 .positive)) = _
    have above : compare (n : Int) 0 = .gt := by
      rw [Int.compare_eq_gt]
      omega
    rw [same, UnpackedFloat.normalize, above, ← rounded]
    rfl
  rw [result]
  exact ofFloat_pack_normal lower upper (by omega) (by omega) _

theorem unpack_toFloat {n : Nat} (positive : 0 < n) (small : n < 2 ^ 53) :
    ∃ (m : ℕ) (e : ℤ) (positive : 0 < m), (m : ℚ) * 2 ^ e = n ∧
      n.toUInt64.toFloat.toModel.unpack = .finite .positive m e positive := by
  obtain ⟨m, e, lower, value, double⟩ := ofFloat_toFloat positive small
  have positive' : 0 < m := by omega
  refine ⟨m, e, positive', value, ?_⟩
  rw [unpack_toModel, double, Double.unpacked, dif_pos positive']
  rfl

/-! ### Reading a decimal -/

section Near

variable {D k M : ℕ} {E : ℤ} (positive : 0 < D) (lower : 2 ^ 52 ≤ M) (upper : M < 2 ^ 53)
  (normal : -1074 < E) (near : Near M E ((D : ℚ) / 10 ^ k))
include positive lower upper normal near

theorem fast_of_near (small : D < 2 ^ 53)
    (listed : k < Float.exactlyRepresentablePowersOfTen.size) :
    D.toUInt64.toFloat / Float.exactlyRepresentablePowersOfTen[k] =
      .ofModel (.pack (.finite .positive M E (pos_of_normal lower))) := by
  obtain ⟨a, ea, positiveA, valueA, unpackA⟩ := unpack_toFloat positive small
  obtain ⟨b, eb, positiveB, valueB, unpackB⟩ := unpack_of_isNat (isNat_power_of_ten ⟨k, listed⟩)
  have quotient : UnpackedFloat.div .binary64 (.finite .positive a ea positiveA)
      (.finite .positive b eb positiveB) = .finite .positive M E (pos_of_normal lower) := by
    apply div_of_near positiveA positiveB lower upper normal
    rw [valueA, valueB]
    exact_mod_cast near
  change Float.ofModel (D.toUInt64.toFloat / Float.exactlyRepresentablePowersOfTen[k]).toModel = _
  have unpackB' : Float.exactlyRepresentablePowersOfTen[k].toModel.unpack =
      .finite .positive b eb positiveB := unpackB
  rw [toModel_div, unpackA, unpackB', quotient]

theorem slow_of_near (places : k ≤ 2048) :
    UnpackedFloat.ofScientific .binary64 D (Int.negOfNat k) =
      .finite .positive M E (pos_of_normal lower) := by
  have negated : Int.negOfNat k = -(k : ℤ) := Int.negOfNat_eq
  have large : ¬ (-(k : ℤ) > 2 ^ 11) := by omega
  have tiny : ¬ (-(k : ℤ) < -((2 ^ 11 : ℤ) + D.log2)) := by omega
  rw [UnpackedFloat.ofScientific, dif_neg positive.ne', negated, if_neg large, if_neg tiny]
  by_cases whole : k = 0
  · subst whole
    have shifted :
        D <<< Format.binary64.mantissaBits * 10 ^ (-((0 : ℕ) : ℤ)).toNat = D * 2 ^ 53 := by
      rw [Nat.shiftLeft_eq]
      exact Nat.mul_one _
    have value : ((D * 2 ^ 53 : ℕ) : ℚ) * 2 ^ (-(Format.binary64.mantissaBits : ℤ) + 0) =
        D / 10 ^ 0 := by
      change ((D * 2 ^ 53 : ℕ) : ℚ) * 2 ^ (-53 : ℤ) = _
      rw [Nat.cast_mul, zpow_neg, pow_zero, div_one]
      exact mul_inv_cancel_right₀ (by norm_num) _
    rw [if_pos (by omega)]
    apply mul_of_near _ _ _ lower upper normal
    · rw [shifted, value]
      exact near
    · rw [shifted]
      omega
  · have power : (10 : ℚ) ^ k = ((10 ^ (-(-(k : ℤ))).toNat : ℕ) : ℚ) := by
      rw [neg_neg, Int.toNat_natCast, Nat.cast_pow]
      rfl
    rw [if_neg (by omega)]
    apply div_of_near _ _ lower upper normal
    rw [zpow_zero, mul_one, mul_one, ← power]
    exact near

end Near

/-- A decimal between the halfway points around a double is read as that double. -/
theorem ofScientific_of_near {D k M : ℕ} {E : ℤ} (positive : 0 < D) (places : k ≤ 2048)
    (lower : 2 ^ 52 ≤ M) (upper : M < 2 ^ 53) (least : -1074 < E) (most : E ≤ 971)
    (near : Near M E ((D : ℚ) / 10 ^ k)) :
    Double.ofFloat (Float.ofScientific D true k) = .finite false M E := by
  have read : Float.ofScientific D true k =
      .ofModel (.pack (.finite .positive M E (pos_of_normal lower))) := by
    have fast := fast_of_near (k := k) positive lower upper least near
    have slow := slow_of_near positive lower upper least near places
    generalize UnpackedFloat.finite .positive M E (pos_of_normal lower) = u at fast slow ⊢
    unfold Float.ofScientific
    split
    · rename_i small
      exact fast small.1 _
    · change Float.ofModel (.pack (UnpackedFloat.ofScientific .binary64 D (Int.negOfNat k))) = _
      rw [slow]
  rw [read]
  exact ofFloat_pack_normal lower upper least.le most _

/-! ### What can be read -/

/-- Numbers without a sign: what is written in digits is one of these. -/
inductive Unsigned : UnpackedFloat → Prop where
  | zero : Unsigned (.zero .positive)
  | infinity : Unsigned (.infinity .positive)
  | finite (m : ℕ) (e : ℤ) (positive : 0 < m) : Unsigned (.finite .positive m e positive)

theorem roundWithAccuracy_unsigned (m : ℕ) (e : ℤ) (acc : Accuracy) :
    Unsigned (roundWithAccuracy .binary64 .positive m e acc) := by
  unfold roundWithAccuracy
  obtain ⟨em, shifted⟩ := shiftToTargetExponent .binary64 m e acc
  dsimp only
  by_cases none_left :
      (shiftToTargetExponent .binary64 em.roundedMantissa shifted .exact).1.mantissa = 0
  · rw [dif_pos none_left]
    exact .zero
  · rw [dif_neg none_left]
    exact .finite ..

theorem ofFloat_pack_unsigned {u : UnpackedFloat} (unsigned : Unsigned u) :
    Double.ofFloat (.ofModel (.pack u)) = .infinite false ∨
      ∃ m e, Double.ofFloat (.ofModel (.pack u)) = .finite false m e := by
  let x : Float := .ofModel (.pack u)
  change Double.ofFloat x = _ ∨ ∃ m e, Double.ofFloat x = _
  have overflow (packed : x.toBits.toBitVec = packedInfinity .binary64 .positive) :
      Double.ofFloat x = .infinite false := by
    rw [ofFloat_of_packComponents packed]
    rfl
  cases unsigned with
  | zero => exact Or.inr ⟨0, -1074, ofFloat_of_packComponents (x := x) rfl⟩
  | infinity => exact Or.inl (overflow rfl)
  | finite m e positive =>
    have packed : x.toBits.toBitVec =
        if 2 ^ 11 ≤ (e + 1023 + 52).toNat + 1 then packedInfinity .binary64 .positive
        else if m.log2 + 1 = 53 then
          packComponents .binary64 .positive (BitVec.ofNat 11 (e + 1023 + 52).toNat)
            (BitVec.ofNat 52 m)
        else packComponents .binary64 .positive 0#11 (BitVec.ofNat 52 m) := rfl
    split at packed
    · exact Or.inl (overflow packed)
    · rename_i room
      split at packed
      · rw [ofFloat_of_packComponents packed, BitVec.toNat_ofNat]
        rw [if_neg (by omega)]
        split
        · exact Or.inr ⟨_, _, rfl⟩
        · exact Or.inr ⟨_, _, rfl⟩
      · exact Or.inr ⟨_, _, ofFloat_of_packComponents packed⟩

theorem ofScientific_unsigned (D k : ℕ) :
    Double.ofFloat (Float.ofScientific D true k) = .infinite false ∨
      ∃ m e, Double.ofFloat (Float.ofScientific D true k) = .finite false m e := by
  suffices packed : ∃ u, Unsigned u ∧ Float.ofScientific D true k = .ofModel (.pack u) by
    obtain ⟨u, unsigned, read⟩ := packed
    rw [read]
    exact ofFloat_pack_unsigned unsigned
  unfold Float.ofScientific
  split
  · rename_i small
    have listed : k < Float.exactlyRepresentablePowersOfTen.size := Nat.lt_succ_of_le small.2
    obtain ⟨b, eb, positiveB, -, unpackB⟩ := unpack_of_isNat (isNat_power_of_ten ⟨k, listed⟩)
    have unpackB' : Float.exactlyRepresentablePowersOfTen[k].toModel.unpack =
        .finite .positive b eb positiveB := unpackB
    refine ⟨UnpackedFloat.div .binary64 D.toUInt64.toFloat.toModel.unpack
      Float.exactlyRepresentablePowersOfTen[k].toModel.unpack, ?_, rfl⟩
    rw [unpackB']
    rcases Nat.eq_zero_or_pos D with rfl | positive
    · exact .zero
    · obtain ⟨a, ea, positiveA, -, unpackA⟩ := unpack_toFloat positive small.1
      rw [unpackA]
      exact roundWithAccuracy_unsigned ..
  · refine ⟨UnpackedFloat.ofScientific .binary64 D (Int.negOfNat k), ?_, rfl⟩
    rw [UnpackedFloat.ofScientific]
    rcases Nat.eq_zero_or_pos D with zero | positive
    · rw [dif_pos zero]
      exact .zero
    rw [dif_neg positive.ne']
    by_cases large : Int.negOfNat k > 2 ^ Format.binary64.exponentBits
    · rw [if_pos large]
      exact .infinity
    rw [if_neg large]
    by_cases tiny : Int.negOfNat k < -(2 ^ Format.binary64.exponentBits + (D.log2 : ℤ))
    · rw [if_pos tiny]
      exact .zero
    rw [if_neg tiny]
    by_cases whole : 0 ≤ Int.negOfNat k
    · rw [if_pos whole]
      exact roundWithAccuracy_unsigned ..
    · rw [if_neg whole]
      exact roundWithAccuracy_unsigned ..

end Equate.Decimal
