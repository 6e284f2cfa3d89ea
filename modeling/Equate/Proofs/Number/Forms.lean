import Equate.Proofs.Number.Numerals

/-!
# The forms of a number

The texts without underscores that `readFloat?` takes for numbers (`form_of_readFloat?`): after a
sign or none, a word, or a mantissa that may have an exponent. Some of them are no numerals and yet
can be read as expressions, too. These are the `Ambiguous` ones: a word alone, and a number whose
mantissa and exponent both have a sign.
-/

namespace Equate.Number

open Text

/-! ### Signs -/

inductive Sign where
  | plus | minus

def Sign.op : Sign → Op
  | plus => .add
  | minus => .sub

def afterSign (sign : Option Sign) (cs : List Char) : List Char :=
  (sign.toList.map fun s => s.op.symbol) ++ cs

theorem takeSign_split (cs : List Char) : ∃ sign, cs = afterSign sign (takeSign cs).2 := by
  unfold takeSign
  split
  · exact ⟨some .minus, rfl⟩
  · exact ⟨some .plus, rfl⟩
  · exact ⟨none, rfl⟩

theorem takeSign_afterSign (s : Sign) (cs : List Char) :
    (takeSign (afterSign (some s) cs)).2 = cs := by
  cases s <;> rfl

theorem not_mem_of_afterSign {c : Char} {sign : Option Sign} {cs : List Char}
    (absent : c ∉ afterSign sign cs) : c ∉ cs :=
  fun member => absent (List.mem_append_right _ member)

/-! ### Exponents -/

inductive IsExponent (sign : Option Sign) : List Char → Prop
  | intro {e : Char} {digits : List Char} (letter : e = 'e' ∨ e = 'E') (nonempty : digits ≠ [])
      (decimal : ∀ c ∈ digits, isAsciiDigit c = true) : IsExponent sign (e :: afterSign sign digits)

theorem exponent?_forms {cs : List Char} (plain : '_' ∉ cs)
    (read : (exponent? cs).isSome = true) : cs = [] ∨ ∃ sign, IsExponent sign cs := by
  cases cs with
  | nil => exact Or.inl rfl
  | cons e cs =>
    obtain ⟨sign, split⟩ := takeSign_split cs
    have plain' : '_' ∉ (takeSign cs).2 := by
      rw [split] at plain
      exact not_mem_of_afterSign fun member => plain (List.mem_cons_of_mem e member)
    have whole := List.takeWhile_append_dropWhile (p := isAsciiDigit) (l := (takeSign cs).2)
    unfold exponent? at read
    simp only [takeDigits_eq plain', Bool.or_eq_true, beq_iff_eq] at read
    split at read
    · rename_i letter
      split at read
      · cases read
      · rename_i digits nonempty all
        rw [Prod.mk.injEq] at all
        obtain ⟨taken, dropped⟩ := all
        rw [taken, dropped, List.append_nil] at whole
        refine Or.inr ⟨sign, ?_⟩
        rw [split, ← whole]
        refine .intro letter nonempty fun c member => ?_
        rw [← taken] at member
        exact List.mem_takeWhile_imp member
      · cases read
    · cases read

section Exponent

variable {s : Sign} {cs : List Char} (exponent : IsExponent (some s) cs)
include exponent

theorem isSome_exponent? : (exponent? cs).isSome = true := by
  cases exponent with
  | @intro e digits letter nonempty decimal =>
    have taken : takeDigits (digits ++ []) = (digits, []) :=
      takeDigits_append decimal List.not_mem_nil nofun
    rw [List.append_nil] at taken
    obtain ⟨c, rest, rfl⟩ := List.exists_cons_of_ne_nil nonempty
    simp only [exponent?, takeSign_afterSign, taken, Bool.or_eq_true, beq_iff_eq, if_pos letter]
    rfl

theorem plain_exponent : '_' ∉ cs := by
  cases exponent with
  | @intro e digits letter nonempty decimal =>
    intro member
    rcases List.mem_cons.mp member with rfl | member
    · rcases letter with letter | letter <;> cases letter
    · rcases List.mem_append.mp member with sign | digit
      · cases s <;> cases List.mem_singleton.mp sign
      · exact isAsciiDigit_ne (decimal _ digit) rfl rfl

theorem head_exponent : ∀ c ∈ cs.head?, isAsciiDigit c = false ∧ c ≠ '.' := by
  cases exponent with
  | intro letter =>
    rintro c ⟨⟩
    rcases letter with rfl | rfl <;> decide

end Exponent

/-! ### Mantissas -/

/-- Without underscores, what is taken are digits with at most one point. -/
theorem takeFraction_split {cs : List Char} (plain : '_' ∉ cs) : ∃ mantissa,
    cs = mantissa ++ (takeFraction cs).2.2 ∧
      Pointed (takeFraction cs).1 (takeFraction cs).2.1 mantissa ∧
      ∀ c ∈ (takeFraction cs).1 ++ (takeFraction cs).2.1, isAsciiDigit c = true := by
  have whole := List.takeWhile_append_dropWhile (p := isAsciiDigit) (l := cs)
  have taken {ds : List Char} (c : Char) (member : c ∈ ds.takeWhile isAsciiDigit) :
      isAsciiDigit c = true := List.mem_takeWhile_imp member
  unfold takeFraction
  rw [takeDigits_eq plain]
  split
  · rename_i before after split
    rw [Prod.mk.injEq] at split
    obtain ⟨rfl, dropped⟩ := split
    rw [dropped] at whole
    have plain' : '_' ∉ after := by
      intro member
      rw [← whole] at plain
      exact plain (by simp [member])
    rw [takeDigits_eq plain']
    refine ⟨_, ?_, .point _, ?_⟩
    · simp only [List.append_assoc, List.cons_append, List.takeWhile_append_dropWhile, whole]
    · rw [List.forall_mem_append]
      exact ⟨taken, taken⟩
  · rename_i before rest _ split
    rw [Prod.mk.injEq] at split
    obtain ⟨rfl, rfl⟩ := split
    refine ⟨_, whole.symm, .bare, ?_⟩
    rw [List.append_nil]
    exact taken

/-! ### Forms -/

/-- What a text without underscores looks like that is a number. -/
inductive Form : List Char → Prop
  | word (sign : Option Sign) {cs : List Char} (read : (ofWord? false cs).isSome = true) :
      Form (afterSign sign cs)
  | numeral (sign : Option Sign) {cs : List Char} (isNumeral : IsNumeral cs) :
      Form (afterSign sign cs)
  | scaled (sign sign' : Option Sign) {cs ds : List Char} (isNumeral : IsNumeral cs)
      (exponent : IsExponent sign' ds) : Form (afterSign sign (cs ++ ds))
  | pointFirst (sign : Option Sign) (cs : List Char) : Form (afterSign sign ('.' :: cs))

/-- What can be a number and an expression without being a numeral. -/
inductive Ambiguous : List Char → Prop
  | word {cs : List Char} (read : (ofWord? false cs).isSome = true) : Ambiguous cs
  | scaled (s s' : Sign) {cs ds : List Char} (isNumeral : IsNumeral cs)
      (exponent : IsExponent (some s') ds) : Ambiguous (afterSign (some s) (cs ++ ds))

theorem isSome_ofWord? (negative : Bool) (cs : List Char) :
    (ofWord? negative cs).isSome = (ofWord? false cs).isSome := by
  unfold ofWord?
  dsimp only
  split
  · rfl
  · split <;> rfl

theorem form_of_readFloat? {text : String} {x : Float} (plain : '_' ∉ clean text)
    (read : readFloat? text = some x) : Form (clean text) := by
  obtain ⟨sign, split⟩ := takeSign_split (clean text)
  unfold readFloat? at read
  rw [split] at plain ⊢
  generalize takeSign (clean text) = taken at plain read ⊢
  obtain ⟨negative, cs⟩ := taken
  have plain' := not_mem_of_afterSign plain
  dsimp only at read plain' ⊢
  cases word : ofWord? negative cs with
  | some y =>
    refine .word sign ?_
    rw [← isSome_ofWord? negative, word]
    rfl
  | none =>
    rw [word, Option.none_or] at read
    -- without a word there are digits: split off the mantissa, then ask what is left
    obtain ⟨mantissa, whole, pointed, digits⟩ := takeFraction_split plain'
    unfold unsigned? at read
    generalize takeFraction cs = parts at whole pointed digits read
    obtain ⟨before, places, rest⟩ := parts
    dsimp only at whole pointed digits read
    split at read
    · cases read
    · rename_i some_digit
      have plainRest : '_' ∉ rest := by
        rw [whole] at plain'
        exact fun member => plain' (List.mem_append_right _ member)
      have power : (exponent? rest).isSome = true := by
        rw [← Option.isSome_map, read]
        rfl
      rw [whole]
      by_cases some_whole : before = []
      · subst some_whole
        cases pointed with
        | bare => exact absurd rfl some_digit
        | point => exact .pointFirst sign _
      · have numeral := isNumeral_of_pointed digits pointed some_whole
        rcases exponent?_forms plainRest power with rfl | ⟨sign', exponent⟩
        · rw [List.append_nil]
          exact .numeral sign numeral
        · exact .scaled sign sign' numeral exponent

theorem readFloat?_of_ambiguous {text : String} (ambiguous : Ambiguous (clean text)) :
    (readFloat? text).isSome = true := by
  unfold readFloat?
  generalize clean text = cs at ambiguous
  cases ambiguous with
  | word read =>
    have letters := (isWord_of_ofWord? read).2
    rw [String.toList_ofList] at letters
    have no_sign : takeSign cs = (false, cs) := by
      refine takeSign_of_head fun c first => ?_
      have letter := letters c (List.mem_of_mem_head? first)
      constructor
      · rintro rfl
        cases letter
      · rintro rfl
        cases letter
    rw [no_sign]
    simp only [Option.isSome_or, read, Bool.true_or]
  | scaled s s' isNumeral exponent =>
    obtain ⟨whole, places, some_whole, digits, pointed⟩ := isNumeral.pointed
    have taken := takeFraction_of_pointed digits pointed (plain_exponent exponent)
      (head_exponent exponent)
    have nonempty : (whole.isEmpty && places.isEmpty) = false := by
      rw [List.isEmpty_eq_false_iff.mpr some_whole, Bool.false_and]
    simp only [takeSign_afterSign, unsigned?, taken, nonempty, Bool.false_eq_true, if_false,
      Option.isSome_or, Option.isSome_map, isSome_exponent? exponent, Bool.or_true]

end Equate.Number
