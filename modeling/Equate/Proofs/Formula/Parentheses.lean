import Equate.Proofs.Formula.Shape
import Equate.Proofs.Number.Numerals

/-!
# Parentheses that are needed

An infix text has no parentheses to spare: without any pair of them it is still read, but as an
expression of another shape (`parse_without_parens`). An expression of the same shape would have the
same tokens but for parentheses, and would be derived from too few of these.
-/

namespace Equate

/-! ### Parentheses in a text -/

/-- Whether every parenthesis of a text has its counterpart when `depth` are open before. -/
def matched : (depth : Nat) → List Char → Bool
  | depth, [] => depth == 0
  | depth, '(' :: cs => matched (depth + 1) cs
  | 0, ')' :: _ => false
  | depth + 1, ')' :: cs => matched depth cs
  | depth, _ :: cs => matched depth cs

theorem matched_append {cs : List Char} (plain : ∀ c ∈ cs, c ≠ '(' ∧ c ≠ ')') (depth : Nat)
    (ds : List Char) : matched depth (cs ++ ds) = matched depth ds := by
  induction cs with
  | nil => rfl
  | cons c cs ih =>
    obtain ⟨⟨not_open, not_close⟩, later⟩ := List.forall_mem_cons.mp plain
    rw [List.cons_append, matched, ih later]
    · exact not_open
    · exact fun _ => not_close
    · exact fun _ _ => not_close

/-- A parenthesis is written for a parenthesis only. -/
theorem Token.not_paren_of_written {t : Token Float} (clear : t.Recognisable)
    (other : t.isParen = false) : ∀ c ∈ t.written Number.short, c ≠ '(' ∧ c ≠ ')' := by
  intro c member
  cases t with
  | operator o op =>
    simp only [Token.written, spaced, List.mem_cons, List.not_mem_nil, or_false] at member
    rcases member with rfl | rfl | rfl
    · decide
    · cases op <;> decide
    · decide
  | openParen => cases other
  | closeParen => cases other
  | _ =>
    have inside := Token.inOperand_of_mem_written rfl clear c member
    constructor
    all_goals
      rintro rfl
      cases inside

theorem matched_writtenAll {ts : List (Token Float)} (clear : ∀ t ∈ ts, t.Recognisable)
    (depth : Nat) : matched depth (writtenAll Number.short ts) = balanced depth ts := by
  induction ts generalizing depth with
  | nil => rfl
  | cons t ts ih =>
    obtain ⟨here, later⟩ := List.forall_mem_cons.mp clear
    have rest := ih later
    cases t with
    | openParen => exact rest (depth + 1)
    | closeParen =>
      cases depth with
      | zero => rfl
      | succ depth => exact rest depth
    | _ => exact (matched_append (Token.not_paren_of_written here rfl) depth _).trans (rest depth)

/-- Where a character is written for single tokens only, it parts the tokens as well. -/
theorem split_of_written {c : Char} {ts : List (Token Float)} {before rest : List Char}
    (alone : ∀ t ∈ ts, c ∈ t.written Number.short → t.written Number.short = [c])
    (split : writtenAll Number.short ts = before ++ c :: rest) :
    ∃ us t vs, ts = us ++ t :: vs ∧ writtenAll Number.short us = before ∧
      t.written Number.short = [c] ∧ writtenAll Number.short vs = rest := by
  induction ts generalizing before with
  | nil => simp [writtenAll] at split
  | cons t ts ih =>
    obtain ⟨here, later⟩ := List.forall_mem_cons.mp alone
    have parts : t.written Number.short ++ writtenAll Number.short ts = before ++ c :: rest := split
    rcases append_eq_append_cons parts with ⟨cs, inside⟩ | ⟨before', rfl, after⟩
    · have single := here (by simp [inside])
      rw [single] at inside parts
      obtain ⟨rfl, -⟩ : before = [] ∧ cs = [] := by
        cases before with
        | nil => exact ⟨rfl, (List.cons.inj inside).2.symm⟩
        | cons d ds => simp at inside
      exact ⟨[], t, ts, rfl, rfl, single, (List.cons.inj parts).2⟩
    · obtain ⟨us, u, vs, rfl, first, single, last⟩ := ih later after
      refine ⟨t :: us, u, vs, rfl, ?_, single, last⟩
      rw [← first]
      rfl

theorem Token.eq_of_paren_mem_written {t : Token Float} (clear : t.Recognisable) :
    ('(' ∈ t.written Number.short → t = .openParen) ∧
      (')' ∈ t.written Number.short → t = .closeParen) := by
  cases t with
  | openParen => simp [Token.written, Token.text]
  | closeParen => simp [Token.written, Token.text]
  | _ =>
    have none_there := Token.not_paren_of_written clear rfl
    exact ⟨fun member => absurd rfl (none_there _ member).1,
      fun member => absurd rfl (none_there _ member).2⟩

/-- A pair of parentheses in a text is a pair of parentheses among the tokens. -/
theorem tokens_of_pair {ts : List (Token Float)} {before inside after : List Char}
    (clear : ∀ t ∈ ts, t.Recognisable)
    (pair : writtenAll Number.short ts = before ++ '(' :: (inside ++ ')' :: after)) :
    ∃ us vs ws, ts = us ++ .openParen :: (vs ++ .closeParen :: ws) ∧
      writtenAll Number.short us = before ∧ writtenAll Number.short vs = inside ∧
      writtenAll Number.short ws = after := by
  have opened (t : Token Float) (member : t ∈ ts) (inside : '(' ∈ t.written Number.short) :
      t.written Number.short = ['('] := by
    rw [(Token.eq_of_paren_mem_written (clear t member)).1 inside]
    rfl
  obtain ⟨us, t, rest, rfl, first, single, later⟩ := split_of_written opened pair
  have clear_rest (u : Token Float) (member : u ∈ rest) := clear u (by simp [member])
  have closed (u : Token Float) (member : u ∈ rest) (inside : ')' ∈ u.written Number.short) :
      u.written Number.short = [')'] := by
    rw [(Token.eq_of_paren_mem_written (clear_rest u member)).2 inside]
    rfl
  obtain ⟨vs, u, ws, rfl, second, single', third⟩ := split_of_written closed later
  have open_ := (Token.eq_of_paren_mem_written (clear t (by simp))).1 (by simp [single])
  have close := (Token.eq_of_paren_mem_written (clear_rest u (by simp))).2 (by simp [single'])
  rw [open_, close]
  exact ⟨us, vs, ws, rfl, first, second, third⟩

/-! ### Tokens that can be read -/

namespace Token

def Plain : Token Float → Prop
  | literal v => Number.Plain v
  | name x => IsWord x
  | _ => True

variable {t : Token Float}

theorem Plain.recognisable (plain : t.Plain) : t.Recognisable := by
  cases t with
  | literal v => exact (Number.plain_iff.mp plain).1
  | _ => exact plain

theorem spells_operand (operand : t.isOperand = true) (plain : t.Plain) :
    Spells (t.written Number.short) [t] ∧ ∀ c ∈ t.written Number.short,
      CharClass.of c = .digit ∨ CharClass.of c = .letter := by
  cases t with
  | literal v =>
    obtain ⟨c, cs, split, digits, -⟩ := Number.short_of_plain plain
    refine ⟨spells_of_plain plain, fun d member => Or.inl (digits d ?_)⟩
    rwa [← split]
  | name x =>
    exact ⟨spells_word plain, fun c member => Or.inr (CharClass.of_letter (plain.2 c member))⟩
  | _ => cases operand

end Token

theorem apart_of_operand {cs ds : List Char}
    (operand : ∀ c ∈ cs, CharClass.of c = .digit ∨ CharClass.of c = .letter)
    (stop : ∀ c ∈ ds.head?, inOperand c = false) : Apart cs ds := by
  rintro a last b first ⟨same, -⟩
  have class_ := operand a (List.mem_of_getLast? last)
  rw [same] at class_
  exact Bool.false_ne_true ((stop b first).symm.trans (inOperand_of_class class_))

theorem apart_of_spaced {op : Op} {ts : List (Token Float)} (plain : ∀ t ∈ ts, t.Plain)
    (alternate : alternates true ts = true) :
    Apart (spaced op) (writtenAll Number.short ts) := by
  cases ts with
  | nil => cases alternate
  | cons t ts =>
    rintro a ⟨⟩ b first ⟨same, -⟩
    rcases alternates_due alternate with ⟨operand, -⟩ | ⟨rfl, -⟩
    · have here := plain t List.mem_cons_self
      obtain ⟨c, cs, text, -⟩ := Token.head_written operand here.recognisable
      obtain rfl : c = b := by simpa [writtenAll, text] using first
      have class_ := (Token.spells_operand operand here).2 c (by simp [text])
      rw [← same] at class_
      rcases class_ with digit | letter
      · cases digit
      · cases letter
    · cases first
      cases same

/-- Alternating tokens are read from their text. -/
theorem spells_writtenAll {due : Bool} {ts : List (Token Float)}
    (alternate : alternates due ts = true) (plain : ∀ t ∈ ts, t.Plain) :
    Spells (writtenAll Number.short ts) ts := by
  induction ts generalizing due with
  | nil => exact fun _ => rfl
  | cons t ts ih =>
    obtain ⟨here, later⟩ := List.forall_mem_cons.mp plain
    cases due with
    | true =>
      rcases alternates_due alternate with ⟨operand, rest⟩ | ⟨rfl, rest⟩
      · obtain ⟨spelled, classes⟩ := Token.spells_operand operand here
        exact spelled.append (apart_of_operand classes (stop_of_alternates rest)) (ih rest later)
      · have opened : Spells ['('] [(.openParen : Token Float)] := fun _ => rfl
        exact opened.append (apart_of_single rfl _) (ih rest later)
    | false =>
      rcases alternates_done alternate with ⟨op, rfl, rest⟩ | ⟨rfl, rest⟩
      · exact (spells_spaced op).append (apart_of_spaced later rest) (ih rest later)
      · have closed : Spells [')'] [(.closeParen : Token Float)] := fun _ => rfl
        exact closed.append (apart_of_single rfl _) (ih rest later)

/-! ### Texts without a pair of parentheses -/

namespace Number

open Decimal Text

theorem not_isNumeral_of_letter {cs : List Char} {c : Char} (member : c ∈ cs)
    (other : CharClass.of c ≠ .digit) : ¬ IsNumeral cs := by
  intro numeral
  rcases numeral.digits c member with digit | rfl
  · exact other (CharClass.of_digit digit)
  · exact other rfl

theorem mem_short_of_exponential {x : Float} (exponential : isExponential x = true) :
    'e' ∈ (short x).toList := by
  rw [toList_short]
  unfold isExponential at exponential
  unfold unsignedText
  cases double : Double.ofFloat x with
  | finite negative m e =>
    simp only [double, Bool.not_eq_true', decide_eq_false_iff_not] at exponential
    dsimp only
    rw [digits_of_not_bounds exponential, Scientific.exponential]
    simp
  | _ =>
    rw [double] at exponential
    cases exponential

/-- A number that is written in digits and a point has no sign and no exponent, and is finite. -/
theorem plain_of_isNumeral {x : Float} (numeral : IsNumeral (short x).toList) : Plain x := by
  have unsigned : isSigned x = false := by
    by_contra signed
    rw [Bool.not_eq_false] at signed
    have minus : '-' ∈ (short x).toList := by simp [toList_short, signed]
    exact not_isNumeral_of_letter minus (by decide) numeral
  refine plain_iff.mpr ⟨?_, unsigned, ?_⟩
  · by_contra infinite
    have word := word_of_not_finite (by simpa using infinite) unsigned
    obtain ⟨c, cs, split⟩ := List.exists_cons_of_ne_nil word.1
    have first : c ∈ (short x).toList := by simp [split]
    have letter := CharClass.of_letter (word.2 c first)
    exact not_isNumeral_of_letter first (by simp [letter]) numeral
  · by_contra exponential
    have letter := mem_short_of_exponential (by simpa using exponential)
    exact not_isNumeral_of_letter letter (by decide) numeral

end Number

/-- Without a pair of matching parentheses the infix text is read as an expression of another
shape. -/
theorem parse_without_parens {e : Expr Float} {text : String} {before inside after : List Char}
    (words : ∀ x ∈ e.names, IsWord x)
    (numerals : ∀ v ∈ e.literals, Number.IsNumeral (Number.short v).toList)
    (written : e.toTree.infixText none = .ok text)
    (pair : text.toList = before ++ '(' :: (inside ++ ')' :: after))
    (matching : matched 0 inside = true) :
    ∃ f : Formula Float, Formula.parse (String.ofList (before ++ (inside ++ after))) = .ok f ∧
      f.expr.shape ≠ e.shape := by
  have plain : ∀ t ∈ e.infixTokens, t.Plain :=
    Expr.forall_infixTokens trivial trivial (fun _ => trivial) words
      fun v member => Number.plain_of_isNumeral (numerals v member)
  rw [infixText_toTree] at written
  obtain rfl := Except.ok.inj written
  rw [e.toList_infixText, e.infixChars_eq] at pair
  obtain ⟨us, vs, ws, tokens, rfl, rfl, rfl⟩ :=
    tokens_of_pair (fun t member => (plain t member).recognisable) pair
  rw [tokens] at plain
  have kept : ∀ t ∈ us ++ (vs ++ ws), t.Plain := fun t member => plain t (by
    simp only [List.mem_append, List.mem_cons] at member ⊢
    tauto)
  rw [matched_writtenAll fun t member => (kept t (by simp [member])).recognisable] at matching
  have derived := e.derives_sum_infixTokens
  have bare := bare_of_derives derived
  rw [tokens] at derived bare
  obtain ⟨e', derived'⟩ := derives_without_parens derived matching
  have spelled := spells_writtenAll (derives_iff.mp ⟨e', derived'⟩).1 kept
  rw [writtenAll_append, writtenAll_append] at spelled
  refine ⟨_, parse_of_derives (scan_of_spells (by rwa [String.toList_ofList])) derived', ?_⟩
  intro same
  -- of the same shape it would be the same expression, and have one parenthesis too few
  have equal : e' = e.asParsed := by
    refine Expr.eq_of_shape (same.trans e.shape_asParsed.symm) ?_
    rw [← bare_of_derives derived', ← bare]
    simp [Rpn.bare, Token.isParen]
  have fewer := openCount_le_of_derives derived'
  rw [equal, e.infixTokens_asParsed, tokens] at fewer
  have closed (ts : List (Token Float)) : Rpn.openCount (.closeParen :: ts) = Rpn.openCount ts :=
    Rpn.openCount_cons rfl ts
  simp only [openCount_append, Rpn.openCount_open, closed] at fewer
  omega

/-- `2 ^ (0.5 - (x - y))` without the outer pair is a difference. -/
theorem parse_without_parens_of_power :
    let e : Expr Float := .node .parsed .pow (.lit 2)
      (.node .introduced .sub (.lit 0.5) (.node .parsed .sub (.var "x") (.var "y")))
    let inside := "0.5 - (x - y)".toList
    (∀ x ∈ e.names, IsWord x) ∧ (∀ v ∈ e.literals, Number.IsNumeral (Number.short v).toList) ∧
      e.toTree.infixText none = .ok "2 ^ (0.5 - (x - y))" ∧
      "2 ^ (0.5 - (x - y))".toList = "2 ^ ".toList ++ '(' :: (inside ++ ')' :: []) ∧
      matched 0 inside = true ∧
      ∃ f : Formula Float,
        Formula.parse (String.ofList ("2 ^ ".toList ++ (inside ++ []))) = .ok f ∧
          f.expr.shape ≠ e.shape := by
  intro e inside
  have words : ∀ x ∈ e.names, IsWord x := by
    intro x member
    have either : x = "x" ∨ x = "y" := by simpa [e] using member
    rcases either with rfl | rfl <;> decide
  have numerals : ∀ v ∈ e.literals, Number.IsNumeral (Number.short v).toList := by
    intro v member
    have either : v = 2 ∨ v = 0.5 := by simpa [e, Expr.literals] using member
    rcases either with rfl | rfl <;> decide +kernel
  have written : e.toTree.infixText none = .ok "2 ^ (0.5 - (x - y))" := by
    rw [infixText_toTree]
    rfl
  exact ⟨words, numerals, written, rfl, rfl, parse_without_parens words numerals written rfl rfl⟩

end Equate
