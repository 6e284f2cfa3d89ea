import Equate.Number
import Equate.Proofs.Number.Positional
import Equate.Proofs.Number.Reading
import Equate.Proofs.Token.Spelling

/-!
# Numbers written without an exponent

`Plain` numbers are zero and those from `10 ^ -4` up to `10 ^ 16`. They are written in digits with
at most one point, and such a text is read as the number again (`short_of_plain`). The texts of all
others without a sign have a letter (`short_of_not_plain`).
-/

namespace Equate.Number

open Decimal Text

/-! ### Digits around a point -/

def pointed : List Char × List Char → List Char
  | (whole, []) => whole
  | (whole, places) => whole ++ '.' :: places

/-- Digits before and after a point, which may be left out if there are none after it. -/
inductive Pointed (whole : List Char) : (places cs : List Char) → Prop
  | bare : Pointed whole [] whole
  | point (places : List Char) : Pointed whole places (whole ++ '.' :: places)

theorem isAsciiDigit_ne {c d : Char} (digit : isAsciiDigit c = true)
    (other : isAsciiDigit d = false) : c ≠ d := by
  rintro rfl
  exact Bool.false_ne_true (other.symm.trans digit)

theorem mem_of_pointed {whole places cs : List Char} (pointed : Pointed whole places cs) {c : Char}
    (member : c ∈ cs) : c ∈ whole ++ places ∨ c = '.' := by
  cases pointed with
  | bare => exact Or.inl (by simpa using member)
  | point =>
    rw [List.mem_append, List.mem_cons] at member
    rw [List.mem_append]
    tauto

theorem pointed_pointed (whole places : List Char) :
    Pointed whole places (pointed (whole, places)) := by
  cases places with
  | nil => exact .bare
  | cons p ps => exact .point (p :: ps)

theorem readPlain?_of_pointed {α : Type} [OfScientific α] {whole places cs : List Char}
    (digits : ∀ c ∈ whole ++ places, isAsciiDigit c = true) (split : Pointed whole places cs) :
    (readPlain? cs : Option α) =
      some (OfScientific.ofScientific (digitsValue (whole ++ places)) true places.length) := by
  have no_point : ∀ c ∈ whole ++ places, (c != '.') = true := fun c member =>
    bne_iff_ne.mpr (isAsciiDigit_ne (digits c member) rfl)
  have before (c : Char) (member : c ∈ whole) := no_point c (List.mem_append_left _ member)
  have after : places.contains '.' = false := by
    rw [List.contains_eq_mem, decide_eq_false_iff_not]
    intro member
    cases no_point '.' (List.mem_append_right _ member)
  cases split with
  | bare =>
    rw [readPlain?, List.takeWhile_eq_self_iff.mpr before, List.dropWhile_eq_nil_iff.mpr before]
    rfl
  | point =>
    rw [readPlain?, List.takeWhile_append_of_pos before, List.dropWhile_append_of_pos before]
    simp only [List.takeWhile_cons_of_neg (p := (· != '.')) (a := '.') (by simp),
      List.dropWhile_cons_of_neg (p := (· != '.')) (a := '.') (by simp), List.append_nil,
      List.drop_one, List.tail_cons, after]
    rfl

theorem digits_of_bounds {s : Scientific} (bounds : -4 ≤ s.exponent ∧ s.exponent < 16) :
    Style.digits ⟨16, false⟩ s = pointed s.positional := by
  rw [Style.digits, if_pos bounds]
  obtain ⟨whole, places⟩ := s.positional
  cases places <;> rfl

theorem digits_of_not_bounds {s : Scientific} (outside : ¬ (-4 ≤ s.exponent ∧ s.exponent < 16)) :
    Style.digits ⟨16, false⟩ s = s.exponential := if_neg outside

section Pointed

variable {whole places : List Char} (digits : ∀ c ∈ whole ++ places, isAsciiDigit c = true)
include digits

theorem class_of_mem_pointed {c : Char} (member : c ∈ pointed (whole, places)) :
    CharClass.of c = .digit := by
  rcases mem_of_pointed (pointed_pointed whole places) member with digit | rfl
  · exact CharClass.of_digit (digits c digit)
  · rfl

theorem pointed_eq_cons (some_whole : whole ≠ []) : ∃ c cs, pointed (whole, places) = c :: cs ∧
    (∀ d ∈ c :: cs, CharClass.of d = .digit) ∧ c ≠ '.' := by
  have classes (c : Char) := class_of_mem_pointed (c := c) digits
  obtain ⟨c, rest, rfl⟩ := List.exists_cons_of_ne_nil some_whole
  have first : isAsciiDigit c = true := digits c (List.mem_append_left _ List.mem_cons_self)
  obtain ⟨cs, split⟩ : ∃ cs, pointed (c :: rest, places) = c :: cs := by
    cases places <;> exact ⟨_, rfl⟩
  rw [split] at classes
  refine ⟨c, cs, split, classes, ?_⟩
  rintro rfl
  cases first

theorem readPlain?_pointed {α : Type} [OfScientific α] :
    (readPlain? (pointed (whole, places)) : Option α) =
      some (OfScientific.ofScientific (digitsValue (whole ++ places)) true places.length) :=
  readPlain?_of_pointed digits (pointed_pointed whole places)

end Pointed

/-! ### Plain numbers -/

/-- Whether a number is zero without a sign, or lies where it is written without an exponent. -/
def Plain (x : Float) : Prop :=
  match Double.ofFloat x with
  | .finite false m e =>
    m = 0 ∨ ((10 : ℚ) ^ (-4 : ℤ) ≤ m * 2 ^ e ∧ (m : ℚ) * 2 ^ e < 10 ^ (16 : ℤ))
  | _ => False

theorem Plain.eq_finite {x : Float} (plain : Plain x) : ∃ (m : ℕ) (e : ℤ),
    Double.ofFloat x = .finite false m e ∧
      (m = 0 ∨ ((10 : ℚ) ^ (-4 : ℤ) ≤ m * 2 ^ e ∧ (m : ℚ) * 2 ^ e < 10 ^ (16 : ℤ))) := by
  unfold Plain at plain
  split at plain
  · exact ⟨_, _, by assumption, plain⟩
  · exact plain.elim

theorem Plain.beq_self {x : Float} (plain : Plain x) : (x == x) = true := by
  obtain ⟨m, e, double, -⟩ := plain.eq_finite
  have unpacked := unpack_toModel x
  rw [double, Double.unpacked] at unpacked
  change (x.toModel.unpack.compare x.toModel.unpack == some .eq) = true
  rw [unpacked]
  by_cases positive : 0 < m
  · rw [dif_pos positive]
    change (some ((compare e e).then (compare m m)) == some .eq) = true
    simp only [Std.ReflCmp.compare_self]
    rfl
  · rw [dif_neg positive]
    rfl

theorem short_of_finite {x : Float} {m : ℕ} {e : ℤ}
    (double : Double.ofFloat x = .finite false m e) :
    (short x).toList = Style.digits ⟨16, false⟩ (shortest m e) := by
  rw [short, Style.render, double]
  exact String.toList_ofList

theorem shortest_digits {m : ℕ} (e : ℤ) (upper : m < 2 ^ 53) : (shortest m e).digits ≠ [] ∧
    ∀ c ∈ (shortest m e).digits, isAsciiDigit c = true := by
  rcases Nat.eq_zero_or_pos m with rfl | positive
  · have digit : ∀ c ∈ ['0'], isAsciiDigit c = true := List.forall_mem_singleton.mpr rfl
    exact ⟨nofun, digit⟩
  · obtain ⟨more, n, -, found, -⟩ := shortest_spec (e := e) positive upper
    rw [found]
    exact digits_ofUnits n _

theorem read_shortest {x : Float} {m : ℕ} {e : ℤ} (double : Double.ofFloat x = .finite false m e)
    (positive : 0 < m) (least : (10 : ℚ) ^ (-4 : ℤ) ≤ m * 2 ^ e)
    (bounds : -4 ≤ (shortest m e).exponent) :
    readPlain? (pointed (shortest m e).positional) = some x := by
  obtain ⟨-, upper, -, high, normal⟩ := bits_of_ofFloat double
  have large : -67 < e := by
    by_contra small
    have upper' : (m : ℚ) < 2 ^ 53 := by exact_mod_cast upper
    have tiny : (2 : ℚ) ^ e ≤ 2 ^ (-67 : ℤ) := zpow_le_zpow_right₀ one_le_two (by omega)
    have product : (m : ℚ) * 2 ^ e ≤ 2 ^ 53 * 2 ^ (-67 : ℤ) :=
      mul_le_mul upper'.le tiny (by positivity) (by positivity)
    norm_num at least product
    linarith
  have lower : 2 ^ 52 ≤ m := by
    by_contra less
    have subnormal := normal (Nat.lt_of_not_le less)
    omega
  obtain ⟨some_digit, digits⟩ := shortest_digits e upper
  have places := length_places (shortest m e)
  have digits' := (positional_digits some_digit digits).2
  have value : Near m e (positionalValue (shortest m e).positional) ∧
      0 < positionalValue (shortest m e).positional ∧ (shortest m e).digits.length ≤ 18 := by
    obtain ⟨more, n, few, found, near, atLeast, atMost⟩ := shortest_spec (e := e) positive upper
    have some_unit : 0 < n := lt_of_lt_of_le (Nat.pow_pos (by decide)) atLeast
    have bound : n < 10 ^ 18 :=
      atMost.trans_lt (Nat.pow_lt_pow_right (by decide) (by omega))
    rw [found, positional_ofUnits]
    exact ⟨near, by positivity, length_digits_ofUnits bound (by decide) _⟩
  generalize (shortest m e).positional = parts at places digits' value ⊢
  obtain ⟨whole, after⟩ := parts
  obtain ⟨near, some_value, few⟩ := value
  simp only [positionalValue] at near some_value places
  have nonzero : 0 < digitsValue (whole ++ after) := by
    by_contra zero
    rw [Nat.eq_zero_of_not_pos zero, Nat.cast_zero, zero_div] at some_value
    exact lt_irrefl _ some_value
  rw [readPlain?_pointed digits']
  have read := ofScientific_of_near nonzero (by omega) lower upper (by omega) high near
  exact congrArg some (eq_of_ofFloat read double)

/-- The text of a plain number: digits, and at most one point, which is not the first character.
It is read as that number. -/
theorem short_of_plain {x : Float} (plain : Plain x) : ∃ c cs, (short x).toList = c :: cs ∧
    (∀ d ∈ c :: cs, CharClass.of d = .digit) ∧ c ≠ '.' ∧ readPlain? (c :: cs) = some x := by
  obtain ⟨m, e, double, zero | ⟨least, most⟩⟩ := plain.eq_finite
  · subst zero
    obtain ⟨-, -, -, -, subnormal⟩ := bits_of_ofFloat double
    obtain rfl := subnormal (by decide)
    have read : Double.ofFloat (Float.ofScientific 0 true 0) = .finite false 0 (-1074) := rfl
    refine ⟨'0', [], short_of_finite double, List.forall_mem_singleton.mpr rfl, by decide, ?_⟩
    exact congrArg some (eq_of_ofFloat read double)
  · have positive : 0 < m := by
      by_contra zero
      rw [Nat.eq_zero_of_not_pos zero, Nat.cast_zero, zero_mul] at least
      norm_num at least
    obtain ⟨-, upper, -, -, normal⟩ := bits_of_ofFloat double
    have bounds := (exponent_shortest_bounds normal upper positive).mpr ⟨least, most⟩
    have read := read_shortest double positive least bounds.1
    obtain ⟨some_digit, digits⟩ := shortest_digits e upper
    obtain ⟨some_whole, digits'⟩ := positional_digits some_digit digits
    rw [short_of_finite double, digits_of_bounds bounds]
    obtain ⟨c, cs, split, classes, no_point⟩ := pointed_eq_cons digits' some_whole
    rw [Prod.mk.eta] at split
    rw [split] at read ⊢
    exact ⟨c, cs, rfl, classes, no_point, read⟩

/-! ### Other numbers without a sign -/

theorem visible_of_mem_exponential {s : Scientific} (digits : ∀ c ∈ s.digits, isAsciiDigit c = true)
    {c : Char} (member : c ∈ s.exponential) : CharClass.of c ≠ .blank := by
  have of_digit {c : Char} (digit : isAsciiDigit c = true) : CharClass.of c ≠ .blank := by
    rw [CharClass.of_digit digit]
    decide
  have in_exponent {c : Char} (member : c ∈ exponentText s.exponent) : CharClass.of c ≠ .blank := by
    have written {c : Char} (member : c ∈ Nat.toDigits 10 s.exponent.natAbs) :=
      of_digit (isAsciiDigit_of_mem_toDigits member)
    unfold exponentText at member
    dsimp only at member
    rcases List.mem_cons.mp member with sign | member
    · rw [sign]
      split <;> decide
    · split at member
      · rcases List.mem_cons.mp member with rfl | member
        · decide
        · exact written member
      · exact written member
  obtain ⟨ds, x⟩ := s
  unfold Scientific.exponential at member
  dsimp only at member digits
  rcases List.mem_append.mp member with mantissa | member
  · split at mantissa
    · rename_i d f more
      simp only [List.mem_cons] at mantissa digits
      rcases mantissa with rfl | rfl | rfl | member
      · exact of_digit (digits _ (Or.inl rfl))
      · decide
      · exact of_digit (digits _ (Or.inr (Or.inl rfl)))
      · exact of_digit (digits _ (Or.inr (Or.inr member)))
    · exact of_digit (digits _ mantissa)
  · rcases List.mem_cons.mp member with rfl | member
    · decide
    · exact in_exponent member

theorem short_of_not_plain {x : Float} (unsigned : Double.ofFloat x = .infinite false ∨
      ∃ m e, Double.ofFloat x = .finite false m e) (not_plain : ¬ Plain x) :
    (∃ c ∈ (short x).toList, isAsciiLetter c = true) ∧
      ∀ c ∈ (short x).toList, CharClass.of c ≠ .blank := by
  rcases unsigned with infinite | ⟨m, e, double⟩
  · have text : (short x).toList = ['i', 'n', 'f'] := by
      rw [short, Style.render, infinite]
      rfl
    have visible : ['i', 'n', 'f'].all (fun c => CharClass.of c ≠ .blank) = true := rfl
    rw [text]
    exact ⟨⟨'i', List.mem_cons_self, rfl⟩, by simpa using visible⟩
  · obtain ⟨-, upper, -, -, normal⟩ := bits_of_ofFloat double
    rw [Plain, double, not_or] at not_plain
    have positive : 0 < m := Nat.pos_of_ne_zero not_plain.1
    have outside := mt (exponent_shortest_bounds normal upper positive).mp not_plain.2
    obtain ⟨some_digit, digits⟩ := shortest_digits e upper
    rw [short_of_finite double, digits_of_not_bounds outside]
    exact ⟨⟨'e', List.mem_append_right _ List.mem_cons_self, by decide⟩,
      fun c => visible_of_mem_exponential digits⟩

end Equate.Number
