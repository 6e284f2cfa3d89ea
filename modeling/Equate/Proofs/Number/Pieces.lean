import Equate.Proofs.Number.PlainText

/-!
# What the texts of numbers are split into

The scanner knows digits with a point as numbers and nothing else. It takes the text of a double to
pieces: a sign becomes an operator, the `e` before an exponent and the words `inf` and `nan` become
variables. `pieces_eq` sets out what the pieces of any double are.
-/

namespace Equate.Number

open Decimal Text

/-! ### Parts of a text -/

def isSigned (x : Float) : Bool :=
  match Double.ofFloat x with
  | .finite negative _ _ | .infinite negative => negative
  | .nan => false

def isExponential (x : Float) : Bool :=
  match Double.ofFloat x with
  | .finite _ m e => !decide (-4 ≤ (shortest m e).exponent ∧ (shortest m e).exponent < 16)
  | _ => false

/-- Whether a number is written in digits, not as a word. -/
def isFinite (x : Float) : Bool :=
  match Double.ofFloat x with
  | .finite .. => true
  | _ => false

def unsignedText (x : Float) : List Char :=
  match Double.ofFloat x with
  | .nan => ['n', 'a', 'n']
  | .infinite _ => ['i', 'n', 'f']
  | .finite _ m e => Style.digits ⟨16, false⟩ (shortest m e)

theorem toList_short (x : Float) :
    (short x).toList = (if isSigned x then ['-'] else []) ++ unsignedText x := by
  unfold short Style.render isSigned unsignedText
  cases Double.ofFloat x with
  | nan => rfl
  | infinite negative => cases negative <;> rfl
  | finite negative m e => cases negative <;> simp [signed]

theorem word_of_not_finite {x : Float} (infinite : isFinite x = false)
    (unsigned : isSigned x = false) : IsWord (short x) := by
  unfold isFinite isSigned at *
  unfold short Style.render
  cases double : Double.ofFloat x with
  | nan => decide
  | infinite negative =>
    rw [double] at unsigned
    obtain rfl : negative = false := unsigned
    decide
  | finite negative m e =>
    rw [double] at infinite
    cases infinite

theorem plain_iff {x : Float} :
    Plain x ↔ isFinite x = true ∧ isSigned x = false ∧ isExponential x = false := by
  unfold Plain isFinite isSigned isExponential
  cases double : Double.ofFloat x with
  | nan => simp
  | infinite negative => simp
  | finite negative m e =>
    cases negative with
    | true => simp
    | false =>
      rcases Nat.eq_zero_or_pos m with rfl | positive
      · simp [shortest, Scientific.zero]
      · obtain ⟨-, upper, -, -, normal⟩ := bits_of_ofFloat double
        have bounds := exponent_shortest_bounds normal upper positive
        simp only [← bounds, Nat.ne_of_gt positive, false_or, true_and, Bool.not_eq_false',
          decide_eq_true_eq]

/-! ### What the text without sign spells -/

/-- The pieces of a number without its sign. Where it has an exponent, these are four. -/
inductive Body : (exponential : Bool) → List (Token Float) → Prop where
  | number (v : Float) : Body false [.literal v]
  | word {x : String} (word : IsWord x) : Body false [.name x]
  | power (a b : Float) (op : Op) :
      Body true [.literal a, .name "e", .operator .parsed op, .literal b]

theorem spells_pointed {whole places : List Char} (some_whole : whole ≠ [])
    (digits : ∀ c ∈ whole ++ places, isAsciiDigit c = true) :
    ∃ v : Float, Spells (pointed (whole, places)) [.literal v] := by
  obtain ⟨c, cs, split, classes, no_point⟩ := pointed_eq_cons digits some_whole
  have read : readPlain? (pointed (whole, places)) = some (Float.ofScientific _ true _) :=
    readPlain?_pointed digits
  rw [split] at read ⊢
  exact ⟨_, spells_number classes no_point read⟩

theorem spells_exponentText (x : Int) : ∃ (op : Op) (v : Float),
    Spells (exponentText x) [.operator .parsed op, .literal v] := by
  have sign : ∃ op : Op, (if x < 0 then '-' else '+') = op.symbol := by
    by_cases negative : x < 0
    · exact ⟨.sub, if_pos negative⟩
    · exact ⟨.add, if_neg negative⟩
  have digits : ∃ ds, exponentText x = (if x < 0 then '-' else '+') :: ds ∧ ds ≠ [] ∧
      ∀ c ∈ ds, isAsciiDigit c = true := by
    have written (c : Char) := isAsciiDigit_of_mem_toDigits (n := x.natAbs) (c := c)
    refine ⟨_, rfl, ?_, ?_⟩
    · split
      · exact List.cons_ne_nil _ _
      · exact Nat.toDigits_ne_nil
    · split
      · exact List.forall_mem_cons.mpr ⟨rfl, written⟩
      · exact written
  obtain ⟨op, sign⟩ := sign
  obtain ⟨ds, split, some_digit, digits⟩ := digits
  rw [split, sign]
  have digits' : ∀ c ∈ ds ++ [], isAsciiDigit c = true := by rwa [List.append_nil]
  obtain ⟨v, spelled⟩ := spells_pointed some_digit digits'
  have symbol : Spells [op.symbol] [(.operator .parsed op : Token Float)] := by
    intro column
    cases op <;> rfl
  have apart : Apart [op.symbol] ds := apart_of_single (by cases op <;> rfl) ds
  exact ⟨op, v, symbol.append apart spelled⟩

theorem spells_exponential {s : Scientific} (some_digit : s.digits ≠ [])
    (digits : ∀ c ∈ s.digits, isAsciiDigit c = true) :
    ∃ ts, Spells s.exponential ts ∧ Body true ts := by
  obtain ⟨ds, x⟩ := s
  obtain ⟨d, rest, rfl⟩ := List.exists_cons_of_ne_nil some_digit
  have split : Scientific.exponential ⟨d :: rest, x⟩ =
      pointed ([d], rest) ++ (['e'] ++ exponentText x) := by
    cases rest <;> rfl
  have digits' : ∀ c ∈ [d] ++ rest, isAsciiDigit c = true := digits
  obtain ⟨a, mantissa⟩ := spells_pointed (List.cons_ne_nil d []) digits'
  obtain ⟨op, b, exponent⟩ := spells_exponentText x
  have letter : Spells ['e'] [(.name "e" : Token Float)] := fun _ => rfl
  have before : Apart (pointed ([d], rest)) (['e'] ++ exponentText x) := by
    rintro c last e ⟨⟩ ⟨same, -⟩
    rw [class_of_mem_pointed digits' (List.mem_of_mem_getLast? last)] at same
    cases same
  have after : Apart ['e'] (exponentText x) := by
    rintro e ⟨⟩ c ⟨⟩ ⟨same, -⟩
    split at same <;> cases same
  rw [split]
  exact ⟨_, mantissa.append before (letter.append after exponent), .power a b op⟩

theorem spells_unsignedText (x : Float) :
    ∃ ts, Spells (unsignedText x) ts ∧ Body (isExponential x) ts := by
  have word {y : String} (word : IsWord y) :
      ∃ ts, Spells y.toList ts ∧ Body false ts := ⟨_, spells_word word, .word word⟩
  unfold unsignedText isExponential
  cases double : Double.ofFloat x with
  | nan => exact word (y := "nan") (by decide)
  | infinite negative => exact word (y := "inf") (by decide)
  | finite negative m e =>
    obtain ⟨-, upper, -⟩ := bits_of_ofFloat double
    obtain ⟨some_digit, digits⟩ := shortest_digits e upper
    dsimp only
    by_cases bounds : -4 ≤ (shortest m e).exponent ∧ (shortest m e).exponent < 16
    · obtain ⟨some_whole, digits'⟩ := positional_digits some_digit digits
      obtain ⟨v, spelled⟩ := spells_pointed some_whole digits'
      rw [digits_of_bounds bounds, decide_eq_true bounds]
      exact ⟨_, spelled, .number v⟩
    · rw [digits_of_not_bounds bounds, decide_eq_false bounds]
      exact spells_exponential some_digit digits

/-! ### What the whole text spells -/

def pieces (x : Float) : List (Token Float) := ((scan (short x)).toOption).getD []

def sign (x : Float) : List (Token Float) :=
  if isSigned x then [.operator .parsed .sub] else []

theorem solid_unsignedText (x : Float) : Solid (unsignedText x) := by
  unfold unsignedText
  cases double : Double.ofFloat x with
  | nan => exact IsWord.solid (x := "nan") (by decide)
  | infinite negative => exact IsWord.solid (x := "inf") (by decide)
  | finite negative m e =>
    obtain ⟨-, upper, -⟩ := bits_of_ofFloat double
    obtain ⟨some_digit, digits⟩ := shortest_digits e upper
    dsimp only
    by_cases bounds : -4 ≤ (shortest m e).exponent ∧ (shortest m e).exponent < 16
    · obtain ⟨some_whole, digits'⟩ := positional_digits some_digit digits
      rw [digits_of_bounds bounds]
      refine solid_of_all ?_ fun c member => ?_
      · generalize (shortest m e).positional = parts at some_whole
        obtain ⟨whole, places⟩ := parts
        cases places with
        | nil => exact some_whole
        | cons p ps => exact List.append_ne_nil_of_right_ne_nil _ (List.cons_ne_nil _ _)
      · rw [class_of_mem_pointed digits' member]
        decide
    · rw [digits_of_not_bounds bounds]
      exact solid_of_all (List.append_ne_nil_of_right_ne_nil _ (List.cons_ne_nil _ _))
        fun c => visible_of_mem_exponential digits

theorem solid_short (x : Float) : Solid (short x).toList := by
  obtain ⟨nonempty, first, last⟩ := solid_unsignedText x
  rw [toList_short]
  cases isSigned x with
  | false => exact ⟨nonempty, first, last⟩
  | true =>
    refine ⟨List.cons_ne_nil _ _, ?_, ?_⟩
    · rintro c ⟨⟩
      decide
    · intro c final
      obtain ⟨d, ds, split⟩ := List.exists_cons_of_ne_nil nonempty
      refine last c ?_
      rw [split] at final ⊢
      rwa [if_pos rfl, List.singleton_append, List.getLast?_cons_cons] at final

theorem spells_short (x : Float) :
    ∃ ts, Spells (short x).toList (sign x ++ ts) ∧ Body (isExponential x) ts := by
  obtain ⟨ts, spelled, body⟩ := spells_unsignedText x
  refine ⟨ts, ?_, body⟩
  rw [toList_short, sign]
  cases isSigned x with
  | false => exact spelled
  | true =>
    have minus : Spells ['-'] [(.operator .parsed .sub : Token Float)] := fun _ => rfl
    exact minus.append (apart_of_single rfl _) spelled

theorem pieces_of_spells {x : Float} {ts : List (Token Float)}
    (spelled : Spells (short x).toList ts) : pieces x = ts := by
  have scanned : scan (short x) = .ok ts := scan_of_spells spelled
  rw [pieces, scanned]
  rfl

/-- The pieces of a number are its sign and those of the text without it. -/
theorem pieces_eq (x : Float) : ∃ ts, pieces x = sign x ++ ts ∧ Body (isExponential x) ts := by
  obtain ⟨ts, spelled, body⟩ := spells_short x
  exact ⟨ts, pieces_of_spells spelled, body⟩

theorem spells_pieces (x : Float) : Spells (short x).toList (pieces x) := by
  obtain ⟨ts, spelled, -⟩ := spells_short x
  rwa [pieces_of_spells spelled]

theorem isParen_of_mem_pieces {x : Float} {t : Token Float} (member : t ∈ pieces x) :
    t.isParen = false := by
  obtain ⟨ts, split, body⟩ := pieces_eq x
  rw [split, sign] at member
  rcases List.mem_append.mp member with minus | member
  · split at minus
    · rw [List.mem_singleton.mp minus]
      rfl
    · cases minus
  · generalize isExponential x = exponential at body
    cases body with
    | number v =>
      rw [List.mem_singleton.mp member]
      rfl
    | word =>
      rw [List.mem_singleton.mp member]
      rfl
    | power a b op =>
      simp only [List.mem_cons, List.not_mem_nil, or_false] at member
      rcases member with rfl | rfl | rfl | rfl <;> rfl

/-- The text of a number that is no plain one has a word, if it is not for the sign. -/
theorem wordCount_short_pos {x : Float} (odd : isFinite x = false ∨ isExponential x = true) :
    0 < wordCount (short x).toList := by
  have letter : ∃ c ∈ unsignedText x, isAsciiLetter c = true := by
    unfold isFinite isExponential at odd
    unfold unsignedText
    cases double : Double.ofFloat x with
    | nan => exact ⟨'n', List.mem_cons_self, rfl⟩
    | infinite negative => exact ⟨'i', List.mem_cons_self, rfl⟩
    | finite negative m e =>
      simp only [double, Bool.true_eq_false, false_or, Bool.not_eq_true',
        decide_eq_false_iff_not] at odd
      dsimp only
      rw [digits_of_not_bounds odd]
      exact ⟨'e', List.mem_append_right _ List.mem_cons_self, by decide⟩
  obtain ⟨c, member, letter⟩ := letter
  rw [toList_short]
  exact wordCount_pos letter (List.mem_append_right _ member)

end Equate.Number
