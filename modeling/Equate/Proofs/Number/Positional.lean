import Equate.Proofs.Number.Shortest
import Equate.Text.Digit
import Mathlib.Data.List.TakeWhile

/-!
# Positional decimals

What the digits around a point are worth (`positional_ofUnits`), and where the exponent of a
shortest decimal lies (`exponent_shortest_bounds`): from `-4` up to `16` exactly if the double lies
from `10 ^ -4` up to `10 ^ 16`, since no double outside is so near to one of these bounds that it
would be written like it.
-/

namespace Equate.Decimal

open Text

/-! ### Digits -/

theorem digitsValue_eq (cs : List Char) : digitsValue cs = Nat.ofDigitChars 10 cs 0 :=
  Nat.ofDigitChars_eq_foldl.symm

theorem digitsValue_toDigits (n : ℕ) : digitsValue (Nat.toDigits 10 n) = n := by
  rw [digitsValue_eq, Nat.ofDigitChars_ten_toDigits]

theorem digitsValue_append_zeros (cs : List Char) (j : ℕ) :
    digitsValue (cs ++ List.replicate j '0') = 10 ^ j * digitsValue cs := by
  rw [digitsValue_eq, Nat.ofDigitChars_append, Nat.ofDigitChars_replicate_zero, digitsValue_eq]

theorem digitsValue_zeros_append (j : ℕ) (cs : List Char) :
    digitsValue (List.replicate j '0' ++ cs) = digitsValue cs := by
  rw [digitsValue_eq, Nat.ofDigitChars_append, Nat.ofDigitChars_replicate_zero, digitsValue_eq,
    Nat.mul_zero]

theorem dropTrailingZeros_spec {ds : List Char} (some_digit : ds ≠ []) :
    dropTrailingZeros ds ≠ [] ∧ ∃ j, ds = dropTrailingZeros ds ++ List.replicate j '0' := by
  let zeros := ds.reverse.takeWhile (· == '0')
  have split : ds = (ds.reverse.dropWhile (· == '0')).reverse ++ zeros.reverse := by
    rw [← List.reverse_append, List.takeWhile_append_dropWhile, List.reverse_reverse]
  have same : zeros.reverse = List.replicate zeros.length '0' := by
    rw [List.eq_replicate_iff]
    refine ⟨List.length_reverse, fun c member => ?_⟩
    have zero := List.mem_takeWhile_imp (p := (· == '0')) (List.mem_reverse.mp member)
    exact beq_iff_eq.mp zero
  rw [same] at split
  unfold dropTrailingZeros
  generalize (ds.reverse.dropWhile (· == '0')).reverse = kept at split ⊢
  cases kept with
  | nil =>
    refine ⟨List.cons_ne_nil _ _, zeros.length - 1, ?_⟩
    have several : zeros.length ≠ 0 := by
      intro none_there
      rw [none_there] at split
      exact some_digit split
    rw [split, List.nil_append]
    obtain ⟨j, count⟩ := Nat.exists_eq_succ_of_ne_zero several
    rw [count]
    rfl
  | cons c cs => exact ⟨List.cons_ne_nil _ _, zeros.length, split⟩

/-! ### Positional forms -/

/-- What the digits before and after a point are worth, the last of them in units. -/
def positionalValue (places : List Char × List Char) : ℚ :=
  digitsValue (places.1 ++ places.2) / 10 ^ places.2.length

theorem positionalValue_positional (s : Scientific) :
    positionalValue s.positional =
      digitsValue s.digits * 10 ^ (s.exponent + 1 - s.digits.length) := by
  obtain ⟨ds, x⟩ := s
  unfold Scientific.positional positionalValue
  dsimp only
  split
  · rename_i negative
    have value : digitsValue (['0'] ++ (List.replicate ((-x).toNat - 1) '0' ++ ds)) =
        digitsValue ds := by
      rw [← List.append_assoc, ← List.replicate_one, List.replicate_append_replicate,
        digitsValue_zeros_append]
    have places : x + 1 - ds.length = -(((-x).toNat - 1 + ds.length : ℕ) : ℤ) := by omega
    rw [value, List.length_append, List.length_replicate, places, zpow_neg, zpow_natCast,
      div_eq_mul_inv]
  · rename_i nonnegative
    rcases Nat.le_total ds.length (x.toNat + 1) with short | long
    · have zeros : x + 1 - ds.length = ((x.toNat + 1 - ds.length : ℕ) : ℤ) := by omega
      rw [List.take_of_length_le short, List.drop_of_length_le short, List.append_nil,
        digitsValue_append_zeros, zeros, zpow_natCast, List.length_nil, pow_zero, div_one]
      push_cast
      ring
    · have places : x + 1 - ds.length = -((ds.length - (x.toNat + 1) : ℕ) : ℤ) := by omega
      rw [Nat.sub_eq_zero_of_le long, List.replicate_zero, List.append_nil, List.take_append_drop,
        List.length_drop, places, zpow_neg, zpow_natCast, div_eq_mul_inv]

theorem positional_ofUnits (n : ℕ) (unit : ℤ) :
    positionalValue (Scientific.ofUnits n unit).positional = n * 10 ^ unit := by
  obtain ⟨-, j, split⟩ := dropTrailingZeros_spec (Nat.toDigits_ne_nil (b := 10) (n := n))
  have value : n = 10 ^ j * digitsValue (dropTrailingZeros (Nat.toDigits 10 n)) := by
    rw [← digitsValue_append_zeros, ← split, digitsValue_toDigits]
  have length := congrArg List.length split
  rw [List.length_append, List.length_replicate] at length
  rw [positionalValue_positional]
  simp only [Scientific.ofUnits, length]
  have value' : (n : ℚ) = 10 ^ j * digitsValue (dropTrailingZeros (Nat.toDigits 10 n)) := by
    exact_mod_cast value
  generalize dropTrailingZeros (Nat.toDigits 10 n) = ds at value' ⊢
  have places : unit + (((ds.length + j : ℕ) : ℤ) - 1) + 1 - ds.length = j + unit := by
    push_cast
    ring
  rw [value', places, zpow_add₀ (by norm_num), zpow_natCast]
  ring

/-! ### Characters of a number -/

theorem isAsciiDigit_of_mem_toDigits {n : ℕ} {c : Char} (member : c ∈ Nat.toDigits 10 n) :
    isAsciiDigit c = true := by
  have digit := Nat.isDigit_of_mem_toDigits (by decide) (by decide) member
  simpa [isAsciiDigit, Char.isDigit, Char.le_def] using digit

theorem digits_ofUnits (n : ℕ) (unit : ℤ) : (Scientific.ofUnits n unit).digits ≠ [] ∧
    ∀ c ∈ (Scientific.ofUnits n unit).digits, isAsciiDigit c = true := by
  obtain ⟨nonempty, j, split⟩ := dropTrailingZeros_spec (Nat.toDigits_ne_nil (b := 10) (n := n))
  refine ⟨nonempty, fun c member => isAsciiDigit_of_mem_toDigits (n := n) ?_⟩
  rw [split]
  exact List.mem_append_left _ member

theorem positional_digits {s : Scientific} (nonempty : s.digits ≠ [])
    (digits : ∀ c ∈ s.digits, isAsciiDigit c = true) :
    s.positional.1 ≠ [] ∧ ∀ c ∈ s.positional.1 ++ s.positional.2, isAsciiDigit c = true := by
  obtain ⟨ds, x⟩ := s
  have zero : isAsciiDigit '0' = true := rfl
  unfold Scientific.positional
  dsimp only at nonempty digits ⊢
  split
  · refine ⟨List.cons_ne_nil _ _, fun c member => ?_⟩
    simp only [List.mem_append, List.mem_singleton, List.mem_replicate] at member
    rcases member with rfl | ⟨-, rfl⟩ | member
    · exact zero
    · exact zero
    · exact digits c member
  · constructor
    · obtain ⟨d, rest, rfl⟩ := List.exists_cons_of_ne_nil nonempty
      simp
    · intro c member
      simp only [List.mem_append, List.mem_replicate] at member
      rcases member with (member | ⟨-, rfl⟩) | member
      · exact digits c (List.mem_of_mem_take member)
      · exact zero
      · exact digits c (List.mem_of_mem_drop member)

theorem length_places (s : Scientific) :
    s.positional.2.length ≤ (-s.exponent).toNat + s.digits.length := by
  unfold Scientific.positional
  split
  · rw [List.length_append, List.length_replicate]
    omega
  · rw [List.length_drop]
    omega

theorem length_digits_ofUnits {n k : ℕ} (few : n < 10 ^ k) (several : 0 < k) (unit : ℤ) :
    (Scientific.ofUnits n unit).digits.length ≤ k := by
  obtain ⟨-, j, split⟩ := dropTrailingZeros_spec (Nat.toDigits_ne_nil (b := 10) (n := n))
  have length := congrArg List.length split
  rw [List.length_append] at length
  have bound := (Nat.length_toDigits_le_iff (by decide) several).mpr few
  simp only [Scientific.ofUnits]
  omega

/-! ### When no exponent is written -/

theorem exponent_ofUnits {n more : ℕ} (least : 10 ^ more ≤ n) (most : n ≤ 10 ^ (more + 1))
    (unit : ℤ) :
    (Scientific.ofUnits n unit).exponent = unit + more ∨
      (Scientific.ofUnits n unit).exponent = unit + more + 1 ∧ n = 10 ^ (more + 1) := by
  have positive : 0 < n := lt_of_lt_of_le (Nat.pow_pos (by decide)) least
  have low := pow_length_toDigits_le positive
  have high := lt_pow_length_toDigits n
  have several : 0 < (Nat.toDigits 10 n).length := Nat.length_toDigits_pos
  have below : more < (Nat.toDigits 10 n).length :=
    (Nat.pow_lt_pow_iff_right (by decide)).mp (least.trans_lt high)
  simp only [Scientific.ofUnits]
  rcases Nat.eq_or_lt_of_le most with full | less
  · have above : (Nat.toDigits 10 n).length - 1 ≤ more + 1 :=
      (Nat.pow_le_pow_iff_right (by decide)).mp (low.trans most)
    have next : more + 1 < (Nat.toDigits 10 n).length :=
      (Nat.pow_lt_pow_iff_right (a := 10) (by decide)).mp (by rwa [← full])
    exact Or.inr ⟨by omega, full⟩
  · have above : (Nat.toDigits 10 n).length - 1 < more + 1 :=
      (Nat.pow_lt_pow_iff_right (by decide)).mp (low.trans_lt less)
    exact Or.inl (by omega)

section Bounds

variable {m : ℕ} {e : ℤ} (normal : m < 2 ^ 52 → e = -1074)
include normal

theorem two_zpow_le_value (k : ℤ) (above : k ≤ e) (few : -1074 < k) :
    (2 : ℚ) ^ (52 + k) ≤ m * 2 ^ e := by
  have lower : 2 ^ 52 ≤ m := by
    by_contra less
    have subnormal := normal (Nat.lt_of_not_le less)
    omega
  have lower' : (2 : ℚ) ^ (52 : ℤ) ≤ m := by exact_mod_cast lower
  have scale : (2 : ℚ) ^ k ≤ 2 ^ e := zpow_le_zpow_right₀ one_le_two above
  calc (2 : ℚ) ^ (52 + k) = 2 ^ (52 : ℤ) * 2 ^ k := zpow_add₀ two_ne_zero _ _
    _ ≤ m * 2 ^ e := mul_le_mul lower' scale (by positivity) (by positivity)

/-- No double below `10 ^ 16` is as near to it as to its neighbours. -/
theorem not_near_sixteen (below : (m : ℚ) * 2 ^ e < 10 ^ (16 : ℤ)) :
    ¬ Near m e (10 ^ (16 : ℤ)) := by
  rintro ⟨-, close, -⟩
  have scale : (0 : ℚ) < 2 ^ e := by positivity
  rcases le_or_gt e 16 with small | large
  · -- a whole number of units lies between the double and the halfway point above it
    obtain ⟨K, units⟩ : ∃ K : ℕ, (10 : ℚ) ^ (16 : ℤ) / 2 ^ e = K := by
      have power : (2 : ℚ) ^ (16 - e).toNat = 2 ^ (16 - e) := by
        rw [← zpow_natCast, Int.toNat_of_nonneg (by omega)]
      refine ⟨5 ^ 16 * 2 ^ (16 - e).toNat, ?_⟩
      push_cast
      rw [div_eq_iff scale.ne', power, zpow_sub₀ two_ne_zero, mul_assoc,
        div_mul_cancel₀ _ scale.ne']
      norm_num
    rw [← lt_div_iff₀ scale, units] at below
    rw [units] at close
    have next : m + 1 ≤ K := by exact_mod_cast below
    have next' : (m : ℚ) + 1 ≤ K := by exact_mod_cast next
    linarith
  · have high := two_zpow_le_value normal 17 large (by decide)
    norm_num at high below
    linarith

variable (upper : m < 2 ^ 53)
include upper

theorem not_near_tenthousandth (below : (m : ℚ) * 2 ^ e < 10 ^ (-4 : ℤ)) :
    ¬ Near m e (10 ^ (-4 : ℤ)) := by
  rintro ⟨-, close, -⟩
  have scale : (0 : ℚ) < 2 ^ e := by positivity
  rcases lt_trichotomy e (-66) with small | rfl | large
  · rw [div_le_iff₀ scale] at close
    have upper' : (m : ℚ) + 1 ≤ 2 ^ 53 := by exact_mod_cast upper
    have tiny : (2 : ℚ) ^ e ≤ 2 ^ (-67 : ℤ) := zpow_le_zpow_right₀ one_le_two (by omega)
    have product : ((m : ℚ) + 1 / 2) * 2 ^ e ≤ 2 ^ 53 * 2 ^ (-67 : ℤ) :=
      mul_le_mul (by linarith) tiny scale.le (by positivity)
    norm_num at close product
    linarith
  · -- `10 ^ -4` is about `7378697629483820.65` units
    rw [← lt_div_iff₀ scale] at below
    have whole : m ≤ 7378697629483820 := by
      by_contra more
      have more : 7378697629483821 ≤ m := by omega
      have more' : (7378697629483821 : ℚ) ≤ m := by exact_mod_cast more
      norm_num at below
      linarith
    have whole' : (m : ℚ) ≤ 7378697629483820 := by exact_mod_cast whole
    norm_num at close
    linarith
  · have high := two_zpow_le_value normal (-65) (by omega) (by decide)
    norm_num at high below
    linarith

variable (positive : 0 < m)
include positive

theorem exponent_shortest_bounds :
    (-4 ≤ (shortest m e).exponent ∧ (shortest m e).exponent < 16) ↔
      (10 : ℚ) ^ (-4 : ℤ) ≤ m * 2 ^ e ∧ (m : ℚ) * 2 ^ e < 10 ^ (16 : ℤ) := by
  obtain ⟨more, n, -, found, near, least, most⟩ := shortest_spec (e := e) positive upper
  obtain ⟨low, high⟩ := value_bounds (e := e) positive
  rw [found]
  generalize (Ratio.ofBinary m e).magnitude = top at low high near ⊢
  have reach (k : ℤ) : (10 : ℚ) ^ k ≤ m * 2 ^ e ↔ k ≤ top := by
    constructor
    · intro below
      have less := (zpow_lt_zpow_iff_right₀ (by norm_num)).mp (below.trans_lt high)
      omega
    · intro below
      exact (zpow_le_zpow_right₀ (by norm_num) below).trans low
  rw [← not_le (a := (10 : ℚ) ^ (16 : ℤ)), reach, reach]
  rcases exponent_ofUnits least most (top - more) with same | ⟨next, full⟩
  · rw [same]
    omega
  · -- the digits are those of a power of ten, which a bound cannot be
    have power : (n : ℚ) * 10 ^ (top - more) = 10 ^ (top + 1) := by
      rw [full, Nat.cast_pow, ← zpow_natCast, Nat.cast_ofNat, ← zpow_add₀ (by norm_num)]
      congr 1
      push_cast
      ring
    rw [power] at near
    have inner : top ≠ -5 := by
      rintro rfl
      exact not_near_tenthousandth normal upper high near
    have outer : top ≠ 15 := by
      rintro rfl
      exact not_near_sixteen normal high near
    rw [next]
    omega

end Bounds

end Equate.Decimal
