import Equate.Proofs.Formula.Supply
import Equate.Proofs.Number.Forms
import Equate.Proofs.Repl.Frame
import Equate.Proofs.Token.Characters
import Equate.Proofs.Token.Separation

/-!
# Values that are given as texts

The value in `:let NAME VALUE` is read as a number, and only if it is none, as an expression.
`bind_stores`: a text that is both has the same value either way, unless it is `Ambiguous`. Most
numbers that are no numerals cannot be expressions: a sign has no operand before it, and the
letter of an exponent is one operand too many (`numeral_or_ambiguous`).
-/

namespace Equate

open Number Text

/-! ### Numbers that are scanned -/

/-- What is scanned is only trimmed to be read as a number. -/
theorem clean_of_scan {text : String} {ts : List (Token Float)} (scanned : scan text = .ok ts) :
    ∃ lead trail : Gap, text.toList = lead.chars ++ clean text ++ trail.chars ∧
      '_' ∉ clean text := by
  have legible := legible_of_scan scanned
  have cleaned := clean_eq fun c member => (legible c member).imp_right And.left
  obtain ⟨lead, trail, split, blankLead, blankTrail⟩ := trimBoth_split isNumberBlank text.toList
  rw [← cleaned] at split
  have blank {c : Char} (space : isNumberBlank c = true) : isBlank c = true := by
    rw [isNumberBlank, Bool.and_eq_true] at space
    exact space.1
  refine ⟨⟨lead, fun c member => blank (blankLead c member)⟩,
    ⟨trail, fun c member => blank (blankTrail c member)⟩, split, fun member => ?_⟩
  have inside : '_' ∈ text.toList := by
    rw [split]
    simp [member]
  rcases legible '_' inside with blank | ⟨-, other⟩
  · cases blank
  · exact other rfl

def Lexeme.share : Lexeme → Int
  | word .. | numeral .. => 1
  | operator _ => -1
  | openParen | closeParen => 0

theorem surplus_of_tokens {ls : List Lexeme} {ts : List (Token Float)}
    (tokens : ls.map Lexeme.token? = ts.map some) :
    Rpn.surplus ts = (ls.map Lexeme.share).sum := by
  induction ls generalizing ts with
  | nil =>
    obtain rfl : ts = [] := by simpa using tokens.symm
    rfl
  | cons l ls ih =>
    cases ts with
    | nil => cases tokens
    | cons t ts =>
      rw [List.map_cons, List.map_cons, List.cons.injEq] at tokens
      have here : Rpn.share t = l.share := by
        obtain ⟨token, -⟩ := tokens
        cases l with
        | numeral cs isNumeral =>
          rw [Lexeme.token?, Option.map_eq_some_iff] at token
          obtain ⟨v, -, rfl⟩ := token
          rfl
        | _ =>
          cases token
          rfl
      rw [Rpn.surplus_cons, here, ih tokens.2, List.map_cons, List.sum_cons]

theorem surplus_of_expr {e : Expr Float} {ts : List (Token Float)}
    (ordered : Rpn.order ts = .ok e.toRpn) : Rpn.surplus ts = 1 := by
  have built := Expr.isOk_build [] e.toRpn
  rw [List.length_nil, Nat.cast_zero, Int.zero_add, Rpn.surplus_of_order ordered] at built
  refine (built.mp ?_).2
  rw [← Expr.ofRpn, Expr.ofRpn_toRpn]
  rfl

def Number.Sign.lexemes (sign : Option Sign) : List Lexeme :=
  sign.toList.map fun s => .operator s.op

theorem Packs.afterSign {ls : List Lexeme} {cs : List Char} (sign : Option Sign)
    (packs : Packs ls cs) : Packs (Sign.lexemes sign ++ ls) (Number.afterSign sign cs) := by
  cases sign with
  | none => exact packs
  | some s =>
    have apart : ∀ l ∈ ls.head?, ¬ (Lexeme.operator s.op).Merges l := fun _ _ => id
    exact ⟨List.cons_ne_nil _ _, packs.apart.cons apart, by rw [← packs.chars]; rfl⟩

/-- The lexemes of a number, unless its first digit comes after the point. With one operand more
than operators, they are a single numeral, or those of a text that can be read in two ways. -/
theorem lexemes_of_form {cs : List Char} (form : Form cs) :
    (∃ sign after, cs = afterSign sign ('.' :: after)) ∨ ∃ ls, Packs ls cs ∧
      ((ls.map Lexeme.share).sum = 1 →
        Ambiguous cs ∨ ∃ isNumeral : IsNumeral cs, ls = [.numeral cs isNumeral]) := by
  cases form with
  | @word sign cs read =>
    have alone : Packs [.word _ (isWord_of_ofWord? read)] cs :=
      ⟨List.cons_ne_nil _ _, .singleton _, by simp [Lexeme.chars]⟩
    refine Or.inr ⟨_, alone.afterSign sign, fun single => ?_⟩
    cases sign with
    | none => exact Or.inl (.word read)
    | some s => simp [Sign.lexemes, Lexeme.share] at single
  | @numeral sign cs isNumeral =>
    have alone : Packs [.numeral cs isNumeral] cs :=
      ⟨List.cons_ne_nil _ _, .singleton _, List.append_nil cs⟩
    refine Or.inr ⟨_, alone.afterSign sign, fun single => ?_⟩
    cases sign with
    | none => exact Or.inr ⟨isNumeral, rfl⟩
    | some s => simp [Sign.lexemes, Lexeme.share] at single
  | @scaled sign sign' cs ds isNumeral exponent =>
    obtain @⟨e, digits, letter, nonempty, decimal⟩ := exponent
    have isWord : IsWord (String.ofList [e]) := by
      rcases letter with rfl | rfl <;> decide
    have power := isNumeral_of_decimal nonempty decimal
    have unsigned : Packs (.numeral cs isNumeral :: .word _ isWord ::
        (Sign.lexemes sign' ++ [.numeral digits power])) (cs ++ e :: afterSign sign' digits) := by
      refine ⟨List.cons_ne_nil _ _, ?_, ?_⟩
      · cases sign' <;> simp [Sign.lexemes, Lexeme.Merges]
      · cases sign' <;> simp [Sign.lexemes, Lexeme.chars, afterSign]
    refine Or.inr ⟨_, unsigned.afterSign sign, fun single => ?_⟩
    -- three operands need two operators, so both signs are there
    cases sign with
    | none => cases sign' <;> simp [Sign.lexemes, Lexeme.share] at single
    | some s =>
      cases sign' with
      | none => simp [Sign.lexemes, Lexeme.share] at single
      | some s' => exact Or.inl (.scaled s s' isNumeral (.intro letter nonempty decimal))
  | pointFirst sign after => exact Or.inl ⟨sign, after, rfl⟩

section Between

variable {text : String} {cs : List Char} {lead trail : Gap} {ts : List (Token Float)}
  (split : text.toList = lead.chars ++ cs ++ trail.chars) (scanned : scan text = .ok ts)
include split scanned

theorem not_point_first {sign : Option Sign} {after : List Char}
    (first : cs = afterSign sign ('.' :: after)) : False := by
  have stop : ∀ c ∈ (lead.chars ++ afterSign sign []).getLast?, CharClass.of c ≠ .digit := by
    intro c last
    cases sign with
    | none =>
      have inside : c ∈ lead.chars := List.mem_of_mem_getLast? (by simpa [afterSign] using last)
      rw [lead.class_of_mem inside]
      exact CharClass.noConfusion
    | some s =>
      obtain rfl : s.op.symbol = c := by simpa [afterSign] using last
      cases s <;> decide
  have place : text.toList = lead.chars ++ afterSign sign [] ++ '.' :: (after ++ trail.chars) := by
    rw [split, first]
    simp [afterSign]
  rw [scan, place] at scanned
  exact not_scan_point stop scanned

/-- A number that is scanned into one operand more than operators is a numeral, or can be read in
two ways. -/
theorem numeral_or_ambiguous (form : Form cs) (single : Rpn.surplus ts = 1) :
    Ambiguous cs ∨ ∃ isNumeral : IsNumeral cs,
      [(Lexeme.numeral cs isNumeral).token?] = ts.map some := by
  rcases lexemes_of_form form with ⟨sign, after, first⟩ | ⟨ls, packs, shares⟩
  · exact (not_point_first split scanned first).elim
  · obtain ⟨us, tokens, spelled⟩ := packs.spells
    have whole := spells_between lead trail packs.solid spelled
    rw [← split] at whole
    rw [scan_of_spells whole] at scanned
    obtain rfl := Except.ok.inj scanned
    rw [surplus_of_tokens tokens] at single
    refine (shares single).imp_right ?_
    rintro ⟨isNumeral, rfl⟩
    exact ⟨isNumeral, tokens⟩

end Between

theorem value_of_literal {e : Expr Float} {x v : Float} {env : Env Float}
    (ordered : Rpn.order [.literal x] = .ok e.toRpn) (value : e.eval env = .ok v) : x = v := by
  have same : (Expr.lit x).toRpn = e.toRpn := Except.ok.inj ordered
  rw [← Expr.toRpn_injective same] at value
  exact Except.ok.inj value

theorem value_of_readFloat? {text : String} {f : Formula Float} {x v : Float} {env : Env Float}
    (parsed : Formula.parse text = .ok f) (value : f.expr.eval env = .ok v)
    (read : readFloat? text = some x) (clear : ¬ Ambiguous (clean text)) : x = v := by
  obtain ⟨ts, scanned, ordered⟩ := tokens_of_parse parsed
  obtain ⟨lead, trail, split, plain⟩ := clean_of_scan scanned
  rcases numeral_or_ambiguous split scanned (form_of_readFloat? plain read)
    (surplus_of_expr ordered) with ambiguous | ⟨isNumeral, tokens⟩
  · exact absurd ambiguous clear
  · have here : (Lexeme.numeral _ isNumeral).token? = some (.literal x) := by
      rw [Lexeme.token?, readFloat?_of_numeral isNumeral, ← readFloat?_of_clean isNumeral, read]
      rfl
    obtain rfl : [.literal x] = ts := by
      refine List.map_injective_iff.mpr (Option.some_injective _) ?_
      rw [← tokens, here]
      rfl
    exact value_of_literal ordered value

namespace Repl

/-- A text that is an expression with a value is stored with that value, unless it is `Ambiguous`.
In that case, what is stored is the number that the text is. -/
theorem bind_stores {s : Repl} {name text : String} {f : Formula Float} {v : Float}
    (named : isName name = true) (parsed : Formula.parse text = .ok f)
    (value : f.expr.eval s.bindings.env = .ok v) :
    ∃ stored, s.bindings.Rebinds name (some stored) (s.bind name text).state.bindings ∧
      (¬ Ambiguous (clean text) → stored = v) ∧
      (Ambiguous (clean text) → readFloat? text = some stored) := by
  -- whichever way the value is read, it is what is put
  have store {x : Float} (read : s.readValue text = .ok x) :
      s.bindings.Rebinds name (some x) (s.bind name text).state.bindings := by
    rw [bind, if_pos named, read]
    exact Bindings.rebinds_put name x s.bindings
  cases read : readFloat? text with
  | some x =>
    have number : s.readValue text = .ok x := by rw [readValue, read]
    exact ⟨x, store number, value_of_readFloat? parsed value read, fun _ => rfl⟩
  | none =>
    have expression : s.readValue text = .ok v := by
      rw [readValue, read, parsed]
      exact value
    refine ⟨v, store expression, fun _ => rfl, fun ambiguous => ?_⟩
    have number := readFloat?_of_ambiguous ambiguous
    rw [read] at number
    cases number

/-- `a * (a - b)` for `a = 2` and `b = 0.5`. -/
theorem bind_stores_of_earlier :
    let s : Repl := ⟨[("a", 2), ("b", 0.5)], false, 10, true⟩
    isName "c" = true ∧ ∃ f : Formula Float, Formula.parse "a * (a - b)" = .ok f ∧
      f.expr.eval s.bindings.env = .ok 3 ∧
      ∃ stored, s.bindings.Rebinds "c" (some stored) (s.bind "c" "a * (a - b)").state.bindings ∧
        (¬ Ambiguous (clean "a * (a - b)") → stored = 3) ∧
        (Ambiguous (clean "a * (a - b)") → readFloat? "a * (a - b)" = some stored) := by
  intro s
  have named : isName "c" = true := rfl
  refine ⟨named, _, rfl, rfl, bind_stores named rfl rfl⟩

/-- The variable `inf` has the value 3, but `:let y inf` binds `y` to infinity. -/
theorem bind_passes_over_variable :
    let s : Repl := ⟨[("inf", 3)], false, 10, true⟩
    isName "y" = true ∧ ∃ f : Formula Float, Formula.parse "inf" = .ok f ∧
      f.expr.eval s.bindings.env = .ok 3 ∧ (s.bind "y" "inf").state.bindings.get? "y" ≠ some 3 := by
  refine ⟨rfl, _, rfl, rfl, fun same => ?_⟩
  have infinite : ((1.0 / 0.0 : Float) == 3) = false := rfl
  have three : (1.0 / 0.0 : Float) = 3 := Option.some.inj same
  rw [three] at infinite
  cases infinite

end Repl

end Equate
