import Equate.Proofs.Number.PlainText
import Equate.Proofs.Number.Range

/-!
# Numerals

Numbers are read in two ways: as literals of an expression, and by `readFloat?`, which knows more
forms. `readFloat?_of_numeral`: a numeral, the form that both know, is read as the same double.
-/

namespace Equate.Number

open Decimal Text

/-! ### Numerals -/

structure IsNumeral (cs : List Char) : Prop where
  first : ∃ c ∈ cs.head?, isAsciiDigit c = true
  digits : ∀ c ∈ cs, isAsciiDigit c = true ∨ c = '.'
  points : cs.count '.' ≤ 1

instance : DecidablePred IsNumeral := fun cs =>
  decidable_of_iff (cs.head?.any isAsciiDigit = true ∧
      cs.all (fun c => isAsciiDigit c || c == '.') = true ∧ cs.count '.' ≤ 1) <| by
    constructor
    · rintro ⟨first, digits, points⟩
      exact ⟨by simpa [Option.any_eq_true] using first, by simpa using digits, points⟩
    · rintro ⟨first, digits, points⟩
      exact ⟨by simpa [Option.any_eq_true] using first, by simpa using digits, points⟩

theorem IsNumeral.pointed {cs : List Char} (numeral : IsNumeral cs) : ∃ whole places,
    whole ≠ [] ∧ (∀ c ∈ whole ++ places, isAsciiDigit c = true) ∧ Pointed whole places cs := by
  obtain ⟨⟨first, head, digit⟩, digits, points⟩ := numeral
  have split := List.takeWhile_append_dropWhile (p := isAsciiDigit) (l := cs)
  have whole (c : Char) (member : c ∈ cs.takeWhile isAsciiDigit) : isAsciiDigit c = true :=
    List.mem_takeWhile_imp member
  have some_whole : cs.takeWhile isAsciiDigit ≠ [] := by
    rw [List.eq_cons_of_mem_head? head, List.takeWhile_cons_of_pos digit]
    exact List.cons_ne_nil _ _
  generalize cs.takeWhile isAsciiDigit = before at split whole some_whole
  cases after : cs.dropWhile isAsciiDigit with
  | nil =>
    rw [after, List.append_nil] at split
    exact ⟨before, [], some_whole, by simpa using whole, split ▸ .bare⟩
  | cons c places =>
    have stop : ¬ isAsciiDigit c = true := by
      have dropped := List.head?_dropWhile_not isAsciiDigit cs
      rw [after] at dropped
      simpa using dropped
    rw [after] at split
    rw [← split] at digits points
    obtain rfl : c = '.' := (digits c (by simp)).resolve_left stop
    rw [List.count_append, List.count_cons_self] at points
    have none_left : places.count '.' = 0 := by omega
    refine ⟨before, places, some_whole, ?_, split ▸ .point places⟩
    rw [List.forall_mem_append]
    refine ⟨whole, fun c member => (digits c (by simp [member])).resolve_right ?_⟩
    rintro rfl
    exact List.count_eq_zero.mp none_left member

theorem isNumeral_of_pointed {whole places cs : List Char}
    (digits : ∀ c ∈ whole ++ places, isAsciiDigit c = true) (pointed : Pointed whole places cs)
    (some_whole : whole ≠ []) : IsNumeral cs where
  first := by
    obtain ⟨c, rest, rfl⟩ := List.exists_cons_of_ne_nil some_whole
    have digit := digits c (List.mem_append_left _ List.mem_cons_self)
    cases pointed <;> exact ⟨c, rfl, digit⟩
  digits c member := (mem_of_pointed pointed member).imp (digits c) id
  points := by
    rw [List.forall_mem_append] at digits
    have none_in {ds : List Char} (digits : ∀ c ∈ ds, isAsciiDigit c = true) : ds.count '.' = 0 :=
      List.count_eq_zero.mpr fun member => isAsciiDigit_ne (digits _ member) rfl rfl
    cases pointed with
    | bare => rw [none_in digits.1]; exact Nat.zero_le 1
    | point =>
      rw [List.count_append, List.count_cons_self, none_in digits.1, none_in digits.2]

theorem isNumeral_of_decimal {digits : List Char} (nonempty : digits ≠ [])
    (decimal : ∀ c ∈ digits, isAsciiDigit c = true) : IsNumeral digits :=
  isNumeral_of_pointed (by simpa using decimal) .bare nonempty

/-! ### Taking signs and digits -/

theorem takeSign_of_head {cs : List Char} (unsigned : ∀ c ∈ cs.head?, c ≠ '-' ∧ c ≠ '+') :
    takeSign cs = (false, cs) := by
  unfold takeSign
  split
  · exact absurd rfl (unsigned '-' rfl).1
  · exact absurd rfl (unsigned '+' rfl).2
  · rfl

/-- Without underscores, the digits at the start are taken and nothing else. -/
theorem takeDigits_eq {cs : List Char} (plain : '_' ∉ cs) :
    takeDigits cs = (cs.takeWhile isAsciiDigit, cs.dropWhile isAsciiDigit) := by
  fun_induction takeDigits cs <;> simp_all

theorem takeDigits_append {digits rest : List Char} (decimal : ∀ c ∈ digits, isAsciiDigit c = true)
    (plain : '_' ∉ rest) (stop : ∀ c ∈ rest.head?, isAsciiDigit c = false) :
    takeDigits (digits ++ rest) = (digits, rest) := by
  have plain' : '_' ∉ digits ++ rest := by
    rw [List.mem_append, not_or]
    exact ⟨fun member => isAsciiDigit_ne (decimal _ member) rfl rfl, plain⟩
  rw [takeDigits_eq plain', List.takeWhile_append_of_pos decimal,
    List.dropWhile_append_of_pos decimal]
  cases rest with
  | nil => simp
  | cons c cs =>
    have other : ¬ isAsciiDigit c = true := Bool.eq_false_iff.mp (stop c rfl)
    rw [List.takeWhile_cons_of_neg other, List.dropWhile_cons_of_neg other, List.append_nil]

section Pointed

variable {whole places cs : List Char} (digits : ∀ c ∈ whole ++ places, isAsciiDigit c = true)
  (pointed : Pointed whole places cs)
include digits pointed

theorem takeFraction_of_pointed {rest : List Char} (plain : '_' ∉ rest)
    (stop : ∀ c ∈ rest.head?, isAsciiDigit c = false ∧ c ≠ '.') :
    takeFraction (cs ++ rest) = (whole, places, rest) := by
  rw [List.forall_mem_append] at digits
  obtain ⟨digitsWhole, digitsPlaces⟩ := digits
  have stop' (c : Char) (first : c ∈ rest.head?) := (stop c first).1
  unfold takeFraction
  cases pointed with
  | bare =>
    rw [takeDigits_append digitsWhole plain stop']
    split
    · rename_i same
      cases same
      exact absurd rfl (stop '.' rfl).2
    · rename_i same
      cases same
      rfl
  | point =>
    have plain' : '_' ∉ '.' :: (places ++ rest) := by
      simp only [List.mem_cons, List.mem_append, not_or]
      exact ⟨by decide, fun member => isAsciiDigit_ne (digitsPlaces _ member) rfl rfl, plain⟩
    have pointNext : ∀ c ∈ ('.' :: (places ++ rest)).head?, isAsciiDigit c = false := by
      rintro c ⟨⟩
      rfl
    rw [List.append_assoc, List.cons_append, takeDigits_append digitsWhole plain' pointNext]
    simp only [takeDigits_append digitsPlaces plain stop']

theorem unsigned?_of_pointed (some_whole : whole ≠ []) : unsigned? false cs = readPlain? cs := by
  have nonempty : (whole.isEmpty && places.isEmpty) = false := by
    rw [List.isEmpty_eq_false_iff.mpr some_whole, Bool.false_and]
  have taken : takeFraction (cs ++ []) = (whole, places, []) :=
    takeFraction_of_pointed digits pointed List.not_mem_nil nofun
  rw [List.append_nil] at taken
  rw [readPlain?_of_pointed digits pointed, unsigned?, taken]
  simp only [nonempty, Bool.false_eq_true, if_false, exponent?, Option.map_some, Int.zero_sub]
  exact congrArg some (ofDecimal_places _ _)

end Pointed

/-! ### Cleaning -/

theorem trimBoth_eq_self {p : Char → Bool} {cs : List Char} (kept : ∀ c ∈ cs, p c = false) :
    trimBoth p cs = cs := by
  have none_dropped {ds : List Char} (kept : ∀ c ∈ ds, p c = false) : ds.dropWhile p = ds := by
    cases ds with
    | nil => rfl
    | cons d ds =>
      exact List.dropWhile_cons_of_neg (Bool.eq_false_iff.mp (kept d List.mem_cons_self))
  rw [trimBoth, none_dropped kept, none_dropped (by simpa using kept), List.reverse_reverse]

/-- What is trimmed stood around what is left. -/
theorem trimBoth_split (p : Char → Bool) (cs : List Char) : ∃ lead trail,
    cs = lead ++ trimBoth p cs ++ trail ∧ (∀ c ∈ lead, p c = true) ∧ ∀ c ∈ trail, p c = true := by
  let inner := cs.dropWhile p
  have front := List.takeWhile_append_dropWhile (p := p) (l := cs)
  have back := congrArg List.reverse
    (List.takeWhile_append_dropWhile (p := p) (l := inner.reverse))
  rw [List.reverse_append, List.reverse_reverse] at back
  refine ⟨cs.takeWhile p, (inner.reverse.takeWhile p).reverse, ?_, ?_, ?_⟩
  · rw [List.append_assoc, trimBoth, back, front]
  · exact fun c member => List.mem_takeWhile_imp member
  · exact fun c member => List.mem_takeWhile_imp (List.mem_reverse.mp member)

/-- The digits of other scripts are not blank, and not in ASCII. -/
theorem digitValue?_cases (c : Char) : digitValue? c = none ∨
    (isAsciiDigit c = true ∧ digitValue? c = some (c.toNat - 0x30)) ∨
    (isBlank c = false ∧ 0x80 ≤ c.toNat) := by
  have scripts : ∀ first ∈ zeroDigits, first = 0x30 ∨ (0x660 ≤ first ∧ first + 10 ≤ 0x1680) ∨
      (0x1681 ≤ first ∧ first + 10 ≤ 0x2000) ∨ 0x3001 ≤ first := by decide
  unfold digitValue?
  cases found : zeroDigits.find? fun first => first ≤ c.toNat && c.toNat < first + 10 with
  | none => exact Or.inl rfl
  | some first =>
    have range := List.find?_some found
    rw [Bool.and_eq_true, decide_eq_true_iff, decide_eq_true_iff] at range
    rcases scripts first (List.mem_of_find?_eq_some found) with rfl | other
    · exact Or.inr (Or.inl ⟨isAsciiDigit_iff.mpr ⟨range.1, by omega⟩, rfl⟩)
    · refine Or.inr (Or.inr ⟨?_, by omega⟩)
      unfold isBlank
      simp only [Bool.or_eq_false_iff, Bool.and_eq_false_iff, decide_eq_false_iff_not,
        beq_eq_false_iff_ne]
      omega

/-- Blanks and the characters of ASCII stay as they are. -/
theorem clean_eq {text : String} (legible : ∀ c ∈ text.toList, isBlank c = true ∨ c.toNat < 0x80) :
    clean text = trimBoth isNumberBlank text.toList := by
  obtain ⟨lead, trail, split, -, -⟩ := trimBoth_split isNumberBlank text.toList
  have inside : ∀ c ∈ trimBoth isNumberBlank text.toList, c ∈ text.toList := by
    intro c member
    rw [split]
    simp [member]
  unfold clean
  generalize trimBoth isNumberBlank text.toList = core at inside
  refine (List.map_congr_left fun c member => ?_).trans (List.map_id core)
  rcases digitValue?_cases c with other | ⟨digit, value⟩ | ⟨visible, beyond⟩
  · rw [other, id]
  · have range := isAsciiDigit_iff.mp digit
    rw [value, id]
    dsimp only
    rw [Nat.add_sub_cancel' range.1, Char.ofNat_toNat]
  · rcases legible c (inside c member) with blank | low
    · exact absurd (visible.symm.trans blank) Bool.false_ne_true
    · omega

/-! ### Reading -/

theorem isAsciiLetter_of_toLower {c : Char} (letter : isAsciiLetter c.toLower = true) :
    isAsciiLetter c = true := by
  unfold Char.toLower at letter
  split at letter
  · rename_i upper
    rw [isAsciiLetter_iff]
    have range : 65 ≤ c.val.toNat ∧ c.val.toNat ≤ 90 := by
      simpa [UInt32.le_iff_toNat_le] using upper
    exact Or.inl range
  · exact letter

/-- The words for infinity and for what is no number are words of an expression, too. -/
theorem isWord_of_ofWord? {negative : Bool} {cs : List Char}
    (read : (ofWord? negative cs).isSome = true) : IsWord (String.ofList cs) := by
  have words {word : String} (word_ : IsWord word)
      (same : String.ofList (cs.map Char.toLower) = word) : IsWord (String.ofList cs) := by
    rw [← same] at word_
    obtain ⟨nonempty, letters⟩ := word_
    rw [String.toList_ofList] at nonempty letters
    rw [IsWord, String.toList_ofList]
    refine ⟨fun empty => nonempty (by rw [empty]; rfl), fun c member => ?_⟩
    exact isAsciiLetter_of_toLower (letters _ (List.mem_map_of_mem member))
  unfold ofWord? at read
  simp only [Bool.or_eq_true, beq_iff_eq] at read
  split at read
  · rename_i infinite
    rcases infinite with short | long
    · exact words (by decide) short
    · exact words (by decide) long
  · split at read
    · rename_i nothing
      exact words (by decide) nothing
    · cases read

theorem readFloat?_of_clean {text : String} (numeral : IsNumeral (clean text)) :
    readFloat? text = readPlain? (clean text) := by
  unfold readFloat?
  generalize clean text = cs at numeral
  obtain ⟨whole, places, some_whole, digits, split⟩ := numeral.pointed
  obtain ⟨first, head, digit⟩ := numeral.first
  have no_word : ofWord? false cs = none := by
    rw [← Option.not_isSome_iff_eq_none]
    intro word
    have letter := (isWord_of_ofWord? word).2 first (by
      rw [String.toList_ofList]
      exact List.mem_of_mem_head? head)
    rw [isAsciiLetter_iff] at letter
    rw [isAsciiDigit_iff] at digit
    omega
  have no_sign : takeSign cs = (false, cs) := by
    refine takeSign_of_head fun c same => ?_
    obtain rfl := Option.mem_unique head same
    exact ⟨isAsciiDigit_ne digit rfl, isAsciiDigit_ne digit rfl⟩
  rw [no_sign]
  dsimp only
  rw [no_word, Option.none_or, unsigned?_of_pointed digits split some_whole]

/-- A numeral is read alike as a number and as a literal. -/
theorem readFloat?_of_numeral {cs : List Char} (numeral : IsNumeral cs) :
    readFloat? (String.ofList cs) = readPlain? cs := by
  have ascii : ∀ c ∈ cs, 0x20 < c.toNat ∧ c.toNat < 0x7f := by
    intro c member
    rcases numeral.digits c member with digit | rfl
    · have range := isAsciiDigit_iff.mp digit
      omega
    · decide
  have cleaned : clean (String.ofList cs) = cs := by
    rw [clean_eq, String.toList_ofList]
    · refine trimBoth_eq_self fun c member => ?_
      rw [isNumberBlank, isBlank_eq_false (ascii c member).1 (ascii c member).2, Bool.false_and]
    · intro c member
      rw [String.toList_ofList] at member
      exact Or.inr (by have := ascii c member; omega)
  have read := readFloat?_of_clean (cleaned.symm ▸ numeral)
  rwa [cleaned] at read

end Equate.Number
