import Equate.Decimal.Double
import Mathlib.Tactic.NormNum

/-!
# Doubles and their bits

`unpack_toModel`: what `Double.ofFloat` reads off the bits is what the arithmetic of doubles works
on. A finite double is determined by its sign, mantissa and exponent (`eq_of_ofFloat`).
-/

namespace Equate.Decimal

open Float.Model Float.Model.UnpackedFloat

theorem toNat_packComponents (s : Sign) (e : BitVec 11) (m : BitVec 52) :
    (packComponents .binary64 s e m).toNat =
      s.toBitVec.toNat * 2 ^ 63 + e.toNat * 2 ^ 52 + m.toNat := by
  have smallE := e.isLt
  have smallM := m.isLt
  unfold packComponents
  rw [BitVec.toNat_append, BitVec.toNat_append]
  rw [← Nat.shiftLeft_add_eq_or_of_lt smallM, ← Nat.shiftLeft_add_eq_or_of_lt smallE]
  simp only [Nat.shiftLeft_eq]
  omega

theorem toNat_unpackMantissa (b : BitVec 64) :
    (@unpackMantissa .binary64 b).toNat = b.toNat % 2 ^ 52 := by
  simp [unpackMantissa]

theorem toNat_unpackExponent (b : BitVec 64) :
    (@unpackExponent .binary64 b).toNat = b.toNat / 2 ^ 52 % 2 ^ 11 := by
  simp [unpackExponent, Nat.shiftRight_eq_div_pow]

theorem toNat_unpackSign (b : BitVec 64) :
    (@unpackSign .binary64 b).toNat = b.toNat / 2 ^ 63 := by
  have small := b.isLt
  have top : (@unpackSign .binary64 b).toNat = b.toNat >>> 63 % 2 ^ 1 := BitVec.extractLsb'_toNat ..
  rw [top, Nat.shiftRight_eq_div_pow]
  omega

def signOf (negative : Bool) : Sign := if negative then .negative else .positive

/-- The number as the logic of doubles has it, where zero stands apart. -/
def Double.unpacked : Double → UnpackedFloat
  | nan => .notANumber
  | infinite negative => .infinity (signOf negative)
  | finite negative m e =>
    if positive : 0 < m then .finite (signOf negative) m e positive else .zero (signOf negative)

theorem signOf_unpackSign (b : BitVec 64) :
    Sign.ofBitVec (@unpackSign .binary64 b) = signOf (b.toNat / 2 ^ 63 == 1) := by
  have top : b.toNat / 2 ^ 63 = 0 ∨ b.toNat / 2 ^ 63 = 1 := by
    have small := b.isLt
    omega
  rcases top with zero | one
  · have none_set : @unpackSign .binary64 b = 0#1 := by
      rw [← BitVec.toNat_inj, toNat_unpackSign, zero]
      rfl
    rw [none_set, zero]
    rfl
  · have set : @unpackSign .binary64 b = 1#1 := by
      rw [← BitVec.toNat_inj, toNat_unpackSign, one]
      rfl
    rw [set, one]
    rfl

theorem ofFloat_eq (x : Float) :
    Double.ofFloat x =
      let bits := x.toBits.toBitVec.toNat
      let negative := bits / 2 ^ 63 == 1
      let field : Nat := bits / 2 ^ 52 % 2 ^ 11
      let fraction := bits % 2 ^ 52
      if field = 2047 then if fraction = 0 then .infinite negative else .nan
      else if field = 0 then .finite negative fraction (-1074)
      else .finite negative (2 ^ 52 + fraction) ((field : Int) - 1075) := by
  simp [Double.ofFloat]

theorem unpack_toModel (x : Float) : x.toModel.unpack = (Double.ofFloat x).unpacked := by
  rw [ofFloat_eq]
  change UnpackedFloat.unpack .binary64 x.toBits.toBitVec = _
  generalize x.toBits.toBitVec = b
  have field := toNat_unpackExponent b
  have fraction := toNat_unpackMantissa b
  have top_iff : b.toNat / 2 ^ 52 % 2 ^ 11 = 2047 ↔ @unpackExponent .binary64 b = -1#11 := by
    rw [← field, ← BitVec.toNat_inj]
    rfl
  have bottom_iff : b.toNat / 2 ^ 52 % 2 ^ 11 = 0 ↔ @unpackExponent .binary64 b = 0#11 := by
    rw [← field, ← BitVec.toNat_inj]
    rfl
  have fraction_iff : b.toNat % 2 ^ 52 = 0 ↔ @unpackMantissa .binary64 b = 0#52 := by
    rw [← fraction, ← BitVec.toNat_inj]
    rfl
  unfold UnpackedFloat.unpack
  dsimp only
  rw [signOf_unpackSign b]
  by_cases top : @unpackExponent .binary64 b = -1#11
  · rw [if_pos top, if_pos (top_iff.mpr top)]
    by_cases zero : @unpackMantissa .binary64 b = 0#52
    · rw [if_pos zero, if_pos (fraction_iff.mpr zero)]
      rfl
    · rw [if_neg zero, if_neg (mt fraction_iff.mp zero)]
      rfl
  · rw [if_neg top, if_neg (mt top_iff.mp top)]
    by_cases bottom : @unpackExponent .binary64 b = 0#11
    · rw [if_pos bottom, if_pos (bottom_iff.mpr bottom)]
      by_cases zero : @unpackMantissa .binary64 b = 0#52
      · rw [dif_pos zero, fraction_iff.mpr zero]
        rfl
      · have positive : 0 < b.toNat % 2 ^ 52 := Nat.pos_of_ne_zero (mt fraction_iff.mp zero)
        rw [dif_neg zero, Double.unpacked, dif_pos positive, UnpackedFloat.finite.injEq, field,
          bottom_iff.mpr bottom]
        exact ⟨rfl, fraction, rfl⟩
    · have positive : 0 < 2 ^ 52 + b.toNat % 2 ^ 52 := by omega
      rw [if_neg bottom, if_neg (mt bottom_iff.mp bottom), Double.unpacked, dif_pos positive,
        UnpackedFloat.finite.injEq, field, BitVec.toNat_append,
        ← Nat.shiftLeft_add_eq_or_of_lt (BitVec.isLt _), fraction]
      exact ⟨rfl, rfl, rfl⟩

/-! ### Bits from numbers -/

theorem eq_of_toNat_bits {x y : Float} (same : x.toBits.toBitVec.toNat = y.toBits.toBitVec.toNat) :
    x = y := by
  obtain ⟨⟨a, validA⟩⟩ := x
  obtain ⟨⟨b, validB⟩⟩ := y
  have bits : a = b := UInt64.eq_of_toBitVec_eq (BitVec.eq_of_toNat_eq same)
  subst bits
  rfl

/-- A finite number tells its bits, and so the double it comes from. -/
theorem bits_of_ofFloat {x : Float} {negative : Bool} {m : Nat} {e : Int}
    (finite : Double.ofFloat x = .finite negative m e) :
    x.toBits.toBitVec.toNat = (if negative then 2 ^ 63 else 0) +
        (if m < 2 ^ 52 then m else (e + 1075).toNat * 2 ^ 52 + (m - 2 ^ 52)) ∧
      m < 2 ^ 53 ∧ -1074 ≤ e ∧ e ≤ 971 ∧ (m < 2 ^ 52 → e = -1074) := by
  rw [ofFloat_eq] at finite
  have small := x.toBits.toBitVec.isLt
  generalize x.toBits.toBitVec.toNat = n at finite small ⊢
  have sign : n / 2 ^ 63 * 2 ^ 63 = if n / 2 ^ 63 == 1 then 2 ^ 63 else 0 := by
    have top : n / 2 ^ 63 = 0 ∨ n / 2 ^ 63 = 1 := by omega
    rcases top with top | top <;> rw [top] <;> rfl
  simp only [] at finite
  split at finite
  · split at finite <;> cases finite
  · split at finite
    · cases finite
      rw [← sign, if_pos (show n % 2 ^ 52 < 2 ^ 52 by omega)]
      omega
    · cases finite
      rw [← sign, if_neg (show ¬ 2 ^ 52 + n % 2 ^ 52 < 2 ^ 52 by omega)]
      omega

theorem eq_of_ofFloat {x y : Float} {negative : Bool} {m : Nat} {e : Int}
    (first : Double.ofFloat x = .finite negative m e)
    (second : Double.ofFloat y = .finite negative m e) : x = y :=
  eq_of_toNat_bits ((bits_of_ofFloat first).1.trans (bits_of_ofFloat second).1.symm)

theorem ofFloat_of_packComponents {x : Float} {e : BitVec 11} {m : BitVec 52}
    (bits : x.toBits.toBitVec = packComponents .binary64 .positive e m) :
    Double.ofFloat x =
      if e.toNat = 2047 then if m.toNat = 0 then .infinite false else .nan
      else if e.toNat = 0 then .finite false m.toNat (-1074)
      else .finite false (2 ^ 52 + m.toNat) ((e.toNat : Int) - 1075) := by
  have smallE := e.isLt
  have smallM := m.isLt
  have value : x.toBits.toBitVec.toNat = e.toNat * 2 ^ 52 + m.toNat := by
    rw [bits, toNat_packComponents]
    change 0 * 2 ^ 63 + e.toNat * 2 ^ 52 + m.toNat = _
    omega
  have sign : (e.toNat * 2 ^ 52 + m.toNat) / 2 ^ 63 = 0 := by omega
  have field : (e.toNat * 2 ^ 52 + m.toNat) / 2 ^ 52 % 2 ^ 11 = e.toNat := by omega
  have fraction : (e.toNat * 2 ^ 52 + m.toNat) % 2 ^ 52 = m.toNat := by omega
  rw [ofFloat_eq]
  simp only [value, sign, field, fraction]
  rfl

theorem ofFloat_pack_normal {m : Nat} {e : Int} (lower : 2 ^ 52 ≤ m) (upper : m < 2 ^ 53)
    (least : -1074 ≤ e) (most : e ≤ 971) (positive : 0 < m) :
    Double.ofFloat (.ofModel (.pack (.finite .positive m e positive))) = .finite false m e := by
  have bits : m.log2 = 52 := (Nat.log2_eq_iff positive.ne').mpr ⟨lower, upper⟩
  have room : ¬ 2 ^ 11 ≤ (e + 1023 + 52).toNat + 1 := by omega
  have packed : UnpackedFloat.pack .binary64 (.finite .positive m e positive) =
      packComponents .binary64 .positive (BitVec.ofNat 11 (e + 1023 + 52).toNat)
        (BitVec.ofNat 52 m) := by
    change (if 2 ^ 11 ≤ (e + 1023 + 52).toNat + 1 then _ else if m.log2 + 1 = 53 then _ else _) = _
    rw [if_neg room, if_pos (by rw [bits])]
    rfl
  let x : Float := .ofModel (.pack (.finite .positive m e positive))
  change Double.ofFloat x = _
  rw [ofFloat_of_packComponents (x := x) packed]
  simp only [BitVec.toNat_ofNat]
  have field : (e + 1023 + 52).toNat % 2 ^ 11 = (e + 1075).toNat := by omega
  rw [field, if_neg (by omega), if_neg (by omega)]
  have fraction : 2 ^ 52 + m % 2 ^ 52 = m := by omega
  have exponent : ((e + 1075).toNat : Int) - 1075 = e := by omega
  rw [fraction, exponent]

end Equate.Decimal
