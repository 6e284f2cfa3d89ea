import Equate.Proofs.Number.Pieces

/-!
# Different numbers have different texts

The text of a finite double gives back the digits that were chosen for it, and what these are worth
lies between the halfway points around that double and around no other (`Near.unique`). So no two
finite doubles are written in the same way (`short_injective`), zero with a sign and without one
included.
-/

namespace Equate

open Text

/-- A text is parted in one way only before the first character that does not satisfy `p`. -/
theorem append_inj_of_stop {p : Char → Bool} {cs cs' ds ds' : List Char}
    (all : ∀ c ∈ cs, p c = true) (all' : ∀ c ∈ cs', p c = true)
    (stop : ∀ c ∈ ds.head?, p c = false) (stop' : ∀ c ∈ ds'.head?, p c = false)
    (same : cs ++ ds = cs' ++ ds') : cs = cs' ∧ ds = ds' := by
  have taken {cs ds : List Char} (all : ∀ c ∈ cs, p c = true)
      (stop : ∀ c ∈ ds.head?, p c = false) : (cs ++ ds).takeWhile p = cs := by
    rw [List.takeWhile_append_of_pos all]
    cases ds with
    | nil => exact List.append_nil cs
    | cons d ds => simp [stop d rfl]
  have first : cs = cs' := by rw [← taken all stop, same, taken all' stop']
  subst first
  exact ⟨rfl, List.append_cancel_left same⟩

namespace Decimal

/-! ### What a text is worth -/

def Scientific.value (s : Scientific) : ℚ :=
  digitsValue s.digits * 10 ^ (s.exponent + 1 - s.digits.length)

theorem value_ofUnits (n : ℕ) (unit : ℤ) : (Scientific.ofUnits n unit).value = n * 10 ^ unit := by
  rw [← positional_ofUnits, positionalValue_positional]
  rfl

theorem exponentText_injective {x y : ℤ} (same : exponentText x = exponentText y) : x = y := by
  have value (z : ℤ) : ∃ ds, exponentText z = (if z < 0 then '-' else '+') :: ds ∧
      digitsValue ds = z.natAbs := by
    refine ⟨_, rfl, ?_⟩
    split
    · have zero := digitsValue_zeros_append 1 (Nat.toDigits 10 z.natAbs)
      exact zero.trans (digitsValue_toDigits z.natAbs)
    · exact digitsValue_toDigits z.natAbs
  obtain ⟨ds, textX, valueX⟩ := value x
  obtain ⟨ds', textY, valueY⟩ := value y
  rw [textX, textY] at same
  obtain ⟨sign, rfl⟩ := List.cons.inj same
  have size : x.natAbs = y.natAbs := valueX.symm.trans valueY
  by_cases negative : x < 0
  · by_cases negative' : y < 0
    · omega
    · rw [if_pos negative, if_neg negative'] at sign
      cases sign
  · by_cases negative' : y < 0
    · rw [if_neg negative, if_pos negative'] at sign
      cases sign
    · omega

/-! ### Doubles around a number -/

theorem gapBelow_le (m : ℕ) (e : ℤ) : gapBelow m e ≤ 1 / 2 := by
  rcases gapBelow_cases m e with gap | gap
  · rw [gap]
    norm_num
  · exact gap.le

theorem not_near_of_mantissa_lt {m m' : ℕ} {e : ℤ} {x : ℚ} (less : m < m') (near : Near m e x)
    (near' : Near m' e x) : False := by
  obtain ⟨-, above, strict⟩ := near
  obtain ⟨below, -, strict'⟩ := near'
  have gap := gapBelow_le m' e
  have next : (m : ℚ) + 1 ≤ m' := by exact_mod_cast less
  have equal : (m' : ℚ) = m + 1 := by linarith
  have successor : m' = m + 1 := by exact_mod_cast equal
  -- the number is halfway between neighbours, of which the odd one does not claim it
  rcases Nat.mod_two_eq_zero_or_one m with even | odd
  · have odd : m' % 2 = 1 := by omega
    linarith [(strict' odd).1]
  · linarith [(strict odd).2]

theorem not_near_of_exponent_lt {m m' : ℕ} {e e' : ℤ} {x : ℚ} (less : e < e')
    (upper : m < 2 ^ 53) (least : -1074 ≤ e) (normal : m' < 2 ^ 52 → e' = -1074)
    (near : Near m e x) (near' : Near m' e' x) : False := by
  obtain ⟨-, above, strict⟩ := near
  have below := near'.1
  have lower : 2 ^ 52 ≤ m' := by
    by_contra small
    have bottom := normal (Nat.lt_of_not_le small)
    omega
  -- in units of the larger double the number is at least `2 ^ 52` but for a quarter
  have large : (2 : ℚ) ^ 52 - 1 / 4 ≤ x / 2 ^ e' := by
    refine le_trans ?_ below
    unfold gapBelow
    split
    · rename_i power
      rw [power.1]
      norm_num
    · rename_i other
      have larger : 2 ^ 52 + 1 ≤ m' := by omega
      have larger' : (2 : ℚ) ^ 52 + 1 ≤ m' := by exact_mod_cast larger
      linarith
  have scale : x / 2 ^ e = x / 2 ^ e' * 2 ^ (e' - e) := by
    rw [zpow_sub₀ two_ne_zero]
    field_simp
  have double : (2 : ℚ) ^ (1 : ℤ) ≤ 2 ^ (e' - e) := zpow_le_zpow_right₀ one_le_two (by omega)
  have size : 2 * (x / 2 ^ e') ≤ x / 2 ^ e := by
    rw [scale, mul_comm]
    exact mul_le_mul_of_nonneg_left (by simpa using double) (by linarith)
  have upper' : m + 1 ≤ 2 ^ 53 := upper
  have upper'' : (m : ℚ) + 1 ≤ 2 ^ 53 := by exact_mod_cast upper'
  have last : (m : ℚ) = 2 ^ 53 - 1 := by linarith
  have odd : m % 2 = 1 := by
    have last' : m + 1 = 2 ^ 53 := by
      have sum : (m : ℚ) + 1 = 2 ^ 53 := by linarith
      exact_mod_cast sum
    omega
  linarith [(strict odd).2]

/-- A number lies between the halfway points around one double only. -/
theorem Near.unique {m m' : ℕ} {e e' : ℤ} {x : ℚ} (upper : m < 2 ^ 53) (upper' : m' < 2 ^ 53)
    (least : -1074 ≤ e) (least' : -1074 ≤ e') (normal : m < 2 ^ 52 → e = -1074)
    (normal' : m' < 2 ^ 52 → e' = -1074) (near : Near m e x) (near' : Near m' e' x) :
    m = m' ∧ e = e' := by
  rcases lt_trichotomy e e' with less | rfl | less
  · exact (not_near_of_exponent_lt less upper least normal' near near').elim
  · rcases lt_trichotomy m m' with less | rfl | less
    · exact (not_near_of_mantissa_lt less near near').elim
    · exact ⟨rfl, rfl⟩
    · exact (not_near_of_mantissa_lt less near' near).elim
  · exact (not_near_of_exponent_lt less upper' least' normal near' near).elim

end Decimal

namespace Number

open Decimal

/-! ### Texts -/

/-- Digits around a point are read as the rational number that they are worth. -/
theorem readPlain?_pointed_rat {whole places : List Char}
    (digits : ∀ c ∈ whole ++ places, isAsciiDigit c = true) :
    readPlain? (pointed (whole, places)) = some (positionalValue (whole, places)) := by
  rw [readPlain?_pointed digits]
  change some (Rat.ofScientific _ true _) = _
  rw [Rat.ofScientific_true_def, Rat.mkRat_eq_div]
  push_cast
  rfl

theorem exponential_eq {d : Char} {rest : List Char} (x : ℤ) :
    Scientific.exponential ⟨d :: rest, x⟩ = pointed ([d], rest) ++ 'e' :: exponentText x := by
  cases rest <;> rfl

section Digits

variable {s s' : Scientific} (some_digit : s.digits ≠ []) (some_digit' : s'.digits ≠ [])
  (digits : ∀ c ∈ s.digits, isAsciiDigit c = true)
  (digits' : ∀ c ∈ s'.digits, isAsciiDigit c = true)
include some_digit digits

theorem readPlain?_positional : readPlain? (pointed s.positional) = some s.value := by
  have read := readPlain?_pointed_rat (positional_digits some_digit digits).2
  rw [Prod.mk.eta, positionalValue_positional] at read
  exact read

theorem not_mem_pointed_positional : 'e' ∉ pointed s.positional := by
  intro letter
  have class_ := class_of_mem_pointed (positional_digits some_digit digits).2 letter
  cases class_

/-- The exponential form is a mantissa and an exponent, which tell what the digits are worth. -/
theorem exponential_parts : ∃ mantissa, s.exponential = mantissa ++ 'e' :: exponentText s.exponent ∧
    (∀ c ∈ mantissa, (c != 'e') = true) ∧
    ∃ v : ℚ, readPlain? mantissa = some v ∧ s.value = v * 10 ^ s.exponent := by
  obtain ⟨ds, x⟩ := s
  obtain ⟨d, rest, rfl⟩ := List.exists_cons_of_ne_nil some_digit
  have digits : ∀ c ∈ [d] ++ rest, isAsciiDigit c = true := digits
  refine ⟨_, exponential_eq x, ?_, _, readPlain?_pointed_rat digits, ?_⟩
  · intro c member
    have class_ := class_of_mem_pointed digits member
    rw [bne_iff_ne]
    rintro rfl
    cases class_
  · have places : x + 1 - ((d :: rest).length : ℤ) = x + -(rest.length : ℤ) := by
      rw [List.length_cons]
      push_cast
      ring
    rw [Scientific.value, places, zpow_add₀ (by norm_num), zpow_neg, zpow_natCast]
    simp only [positionalValue, List.singleton_append]
    ring

include some_digit' digits'

theorem value_eq_of_exponential (same : s.exponential = s'.exponential) : s.value = s'.value := by
  obtain ⟨mantissa, text, plain, v, read, value⟩ := exponential_parts some_digit digits
  obtain ⟨mantissa', text', plain', v', read', value'⟩ := exponential_parts some_digit' digits'
  rw [text, text'] at same
  have stop (x : ℤ) : ∀ c ∈ ('e' :: exponentText x).head?, (c != 'e') = false := by
    rintro c ⟨⟩
    rfl
  obtain ⟨rfl, exponents⟩ := append_inj_of_stop plain plain' (stop _) (stop _) same
  have exponent := exponentText_injective (List.cons.inj exponents).2
  obtain rfl := Option.some.inj (read.symm.trans read')
  rw [value, value', exponent]

/-- Digits with an exponent that are written alike are worth the same. -/
theorem value_eq_of_digits
    (same : Style.digits ⟨16, false⟩ s = Style.digits ⟨16, false⟩ s') : s.value = s'.value := by
  have exponent {s : Scientific} : 'e' ∈ s.exponential :=
    List.mem_append_right _ List.mem_cons_self
  by_cases bounds : -4 ≤ s.exponent ∧ s.exponent < 16
  · have plain := not_mem_pointed_positional some_digit digits
    by_cases bounds' : -4 ≤ s'.exponent ∧ s'.exponent < 16
    · rw [digits_of_bounds bounds, digits_of_bounds bounds'] at same
      have read := readPlain?_positional some_digit digits
      rw [same, readPlain?_positional some_digit' digits'] at read
      exact (Option.some.inj read).symm
    · rw [digits_of_bounds bounds, digits_of_not_bounds bounds'] at same
      rw [same] at plain
      exact absurd exponent plain
  · by_cases bounds' : -4 ≤ s'.exponent ∧ s'.exponent < 16
    · have plain := not_mem_pointed_positional some_digit' digits'
      rw [digits_of_not_bounds bounds, digits_of_bounds bounds'] at same
      rw [← same] at plain
      exact absurd exponent plain
    · rw [digits_of_not_bounds bounds, digits_of_not_bounds bounds'] at same
      exact value_eq_of_exponential some_digit some_digit' digits digits' same

end Digits

/-! ### Doubles -/

theorem shortest_value {m : ℕ} (e : ℤ) (upper : m < 2 ^ 53) :
    (m = 0 → (shortest m e).value = 0) ∧
      (0 < m → 0 < (shortest m e).value ∧ Near m e (shortest m e).value) := by
  constructor
  · rintro rfl
    have zero : shortest 0 e = .zero := rfl
    rw [zero]
    simp [Scientific.value, Scientific.zero, digitsValue]
  · intro positive
    obtain ⟨more, n, -, found, near, least, -⟩ := shortest_spec (e := e) positive upper
    have some_unit : 0 < n := lt_of_lt_of_le (Nat.pow_pos (by decide)) least
    rw [found, value_ofUnits]
    exact ⟨by positivity, near⟩

/-- A finite double is determined by its sign and by what its shortest digits are worth. -/
theorem eq_of_value {x y : Float} {negative : Bool} {m m' : ℕ} {e e' : ℤ}
    (double : Double.ofFloat x = .finite negative m e)
    (double' : Double.ofFloat y = .finite negative m' e')
    (same : (shortest m e).value = (shortest m' e').value) : x = y := by
  obtain ⟨-, upper, least, -, normal⟩ := bits_of_ofFloat double
  obtain ⟨-, upper', least', -, normal'⟩ := bits_of_ofFloat double'
  obtain ⟨zero, nonzero⟩ := shortest_value e upper
  obtain ⟨zero', nonzero'⟩ := shortest_value e' upper'
  rcases Nat.eq_zero_or_pos m with rfl | positive
  · rcases Nat.eq_zero_or_pos m' with rfl | positive'
    · -- both are the zero of that sign, which has the least exponent
      obtain rfl := normal (by decide)
      obtain rfl := normal' (by decide)
      exact eq_of_ofFloat double double'
    · rw [← same, zero rfl] at nonzero'
      exact absurd (nonzero' positive').1 (lt_irrefl 0)
  · rcases Nat.eq_zero_or_pos m' with rfl | positive'
    · rw [same, zero' rfl] at nonzero
      exact absurd (nonzero positive).1 (lt_irrefl 0)
    · have near := (nonzero positive).2
      have near' := (nonzero' positive').2
      rw [← same] at near'
      obtain ⟨rfl, rfl⟩ := near.unique upper upper' least least' normal normal' near'
      exact eq_of_ofFloat double double'

theorem mem_exponentText {x : ℤ} {c : Char} (member : c ∈ exponentText x) :
    c = '-' ∨ c = '+' ∨ CharClass.of c = .digit := by
  have written {c : Char} (member : c ∈ Nat.toDigits 10 x.natAbs) : CharClass.of c = .digit :=
    CharClass.of_digit (isAsciiDigit_of_mem_toDigits member)
  unfold exponentText at member
  dsimp only at member
  rcases List.mem_cons.mp member with rfl | member
  · split
    · exact Or.inl rfl
    · exact Or.inr (Or.inl rfl)
  · split at member
    · rcases List.mem_cons.mp member with rfl | member
      · exact Or.inr (Or.inr rfl)
      · exact Or.inr (Or.inr (written member))
    · exact Or.inr (Or.inr (written member))

theorem exists_finite {x : Float} (finite : isFinite x = true) :
    ∃ negative m e, Double.ofFloat x = .finite negative m e := by
  unfold isFinite at finite
  split at finite
  · exact ⟨_, _, _, by assumption⟩
  · cases finite

/-- The characters of a finite double: digits and a point, signs, and the `e` of the exponent. -/
theorem mem_short {x : Float} (finite : isFinite x = true) {c : Char}
    (member : c ∈ (short x).toList) :
    CharClass.of c = .digit ∨ c = '-' ∨ c = '+' ∨ c = 'e' := by
  obtain ⟨negative, m, e, double⟩ := exists_finite finite
  obtain ⟨-, upper, -⟩ := bits_of_ofFloat double
  obtain ⟨some_digit, digits⟩ := shortest_digits e upper
  have inside : c = '-' ∨ c ∈ Style.digits ⟨16, false⟩ (shortest m e) := by
    rw [toList_short, unsignedText, double, List.mem_append] at member
    split at member
    · simpa using member
    · exact Or.inr (by simpa using member)
  rcases inside with rfl | member
  · simp
  generalize shortest m e = s at some_digit digits member
  by_cases bounds : -4 ≤ s.exponent ∧ s.exponent < 16
  · rw [digits_of_bounds bounds] at member
    exact Or.inl (class_of_mem_pointed (positional_digits some_digit digits).2 member)
  · rw [digits_of_not_bounds bounds] at member
    obtain ⟨ds, exponent⟩ := s
    obtain ⟨d, rest, rfl⟩ := List.exists_cons_of_ne_nil some_digit
    have digits : ∀ c ∈ [d] ++ rest, isAsciiDigit c = true := digits
    rw [exponential_eq, List.mem_append, List.mem_cons] at member
    rcases member with mantissa | rfl | member
    · exact Or.inl (class_of_mem_pointed digits mantissa)
    · simp
    · have part := mem_exponentText member
      tauto

theorem head_unsignedText {x : Float} (finite : isFinite x = true) :
    ∃ c cs, unsignedText x = c :: cs ∧ CharClass.of c = .digit := by
  obtain ⟨negative, m, e, double⟩ := exists_finite finite
  obtain ⟨-, upper, -⟩ := bits_of_ofFloat double
  obtain ⟨some_digit, digits⟩ := shortest_digits e upper
  rw [unsignedText, double]
  dsimp only
  generalize shortest m e = s at some_digit digits
  by_cases bounds : -4 ≤ s.exponent ∧ s.exponent < 16
  · obtain ⟨some_whole, digits'⟩ := positional_digits some_digit digits
    obtain ⟨c, cs, split, classes, -⟩ := pointed_eq_cons digits' some_whole
    rw [digits_of_bounds bounds]
    exact ⟨c, cs, split, classes c List.mem_cons_self⟩
  · rw [digits_of_not_bounds bounds]
    obtain ⟨ds, exponent⟩ := s
    obtain ⟨d, rest, rfl⟩ := List.exists_cons_of_ne_nil some_digit
    have first := CharClass.of_digit (digits d List.mem_cons_self)
    cases rest <;> exact ⟨d, _, rfl, first⟩

theorem sign_of_short {x y : Float} (finite : isFinite x = true) (finite' : isFinite y = true)
    (same : short x = short y) : isSigned x = isSigned y ∧ unsignedText x = unsignedText y := by
  obtain ⟨c, cs, text, digit⟩ := head_unsignedText finite
  obtain ⟨c', cs', text', digit'⟩ := head_unsignedText finite'
  have chars := congrArg String.toList same
  rw [toList_short, toList_short, text, text'] at chars
  rw [text, text']
  cases signed : isSigned x with
  | false =>
    cases signed' : isSigned y with
    | false => simpa [signed, signed'] using chars
    | true =>
      rw [signed, signed'] at chars
      obtain ⟨rfl, -⟩ := List.cons.inj chars
      cases digit
  | true =>
    cases signed' : isSigned y with
    | false =>
      rw [signed, signed'] at chars
      obtain ⟨rfl, -⟩ := List.cons.inj chars
      cases digit'
    | true => simpa [signed, signed'] using chars

/-- No two finite doubles have the same text. -/
theorem short_injective {x y : Float} (finite : isFinite x = true) (finite' : isFinite y = true)
    (same : short x = short y) : x = y := by
  obtain ⟨sign, text⟩ := sign_of_short finite finite' same
  obtain ⟨negative, m, e, double⟩ := exists_finite finite
  obtain ⟨negative', m', e', double'⟩ := exists_finite finite'
  rw [isSigned, isSigned, double, double'] at sign
  rw [unsignedText, unsignedText, double, double'] at text
  obtain rfl : negative = negative' := sign
  obtain ⟨-, upper, -⟩ := bits_of_ofFloat double
  obtain ⟨-, upper', -⟩ := bits_of_ofFloat double'
  obtain ⟨some_digit, digits⟩ := shortest_digits e upper
  obtain ⟨some_digit', digits'⟩ := shortest_digits e' upper'
  have value := value_eq_of_digits some_digit some_digit' digits digits' text
  exact eq_of_value double double' value

end Number

end Equate
