import Equate.Proofs.Formula.RoundTrip
import Equate.Proofs.Number.Distinct

/-!
# Infix texts that the scanner cannot read back

A negative number or one with an exponent is written in an infix text, but is not read again as one
token. Texts are unambiguous nevertheless (`infixText_inj`): between two operators without blanks
around them there is one operand, so that a text tells its tokens, and these tell the expression.
-/

namespace Equate

variable {α : Type}

/-! ### The characters of a token -/

def Token.written (lit : α → String) : Token α → List Char
  | .operator _ op => spaced op
  | t => (t.text lit).toList

def writtenAll (lit : α → String) (ts : List (Token α)) : List Char :=
  ts.flatMap (Token.written lit)

theorem writtenAll_append (lit : α → String) (ts us : List (Token α)) :
    writtenAll lit (ts ++ us) = writtenAll lit ts ++ writtenAll lit us := List.flatMap_append

theorem Expr.infixChars_eq (lit : α → String) (e : Expr α) :
    e.infixChars lit = writtenAll lit e.infixTokens := by
  have written_beside (op : Op) (first : Bool) (e : Expr α) (ts : List (Token α)) :
      e.beside op first bracketed (writtenAll lit ts) =
        writtenAll lit (e.beside op first parenthesized ts) := by
    unfold beside
    split
    · simp [writtenAll, bracketed, parenthesized, Token.written, Token.text]
    · rfl
  induction e with
  | lit v => simp [infixChars, infixTokens, writtenAll, Token.written, token]
  | var x => simp [infixChars, infixTokens, writtenAll, Token.written, token]
  | node o op l r ihl ihr =>
    rw [infixChars, infixTokens, ihl, ihr, written_beside, written_beside, writtenAll_append,
      List.append_assoc]
    rfl

/-! ### Alternating tokens -/

/-- Where an operand is due, there is one, or a parenthesis opens. -/
theorem alternates_due {t : Token α} {ts : List (Token α)}
    (alternate : alternates true (t :: ts) = true) :
    (t.isOperand = true ∧ alternates false ts = true) ∨
      (t = .openParen ∧ alternates true ts = true) := by
  match t, alternate with
  | .literal v, alternate => exact Or.inl ⟨rfl, alternate⟩
  | .name x, alternate => exact Or.inl ⟨rfl, alternate⟩
  | .openParen, alternate => exact Or.inr ⟨rfl, alternate⟩

/-- After an operand there is an operator, or a parenthesis closes. -/
theorem alternates_done {t : Token α} {ts : List (Token α)}
    (alternate : alternates false (t :: ts) = true) :
    (∃ op, t = .operator .parsed op ∧ alternates true ts = true) ∨
      (t = .closeParen ∧ alternates false ts = true) := by
  match t, alternate with
  | .operator .parsed op, alternate => exact Or.inl ⟨op, rfl, alternate⟩
  | .closeParen, alternate => exact Or.inr ⟨rfl, alternate⟩

/-! ### Operands -/

def inOperand (c : Char) : Bool := c != ' ' && c != '(' && c != ')'

theorem inOperand_of_class {c : Char}
    (class_ : CharClass.of c = .digit ∨ CharClass.of c = .letter) : inOperand c = true := by
  simp only [inOperand, Bool.and_eq_true, bne_iff_ne]
  refine ⟨⟨?_, ?_⟩, ?_⟩
  all_goals
    rintro rfl
    rcases class_ with digit | letter
    · cases digit
    · cases letter

namespace Token

/-- What a token needs to be told by its text: words for names, finite numbers. -/
def Recognisable : Token Float → Prop
  | literal v => Number.isFinite v = true
  | name x => IsWord x
  | _ => True

variable {t u : Token Float}

theorem inOperand_of_mem_written (operand : t.isOperand = true) (clear : t.Recognisable) :
    ∀ c ∈ t.written Number.short, inOperand c = true := by
  intro c member
  cases t with
  | literal v =>
    rcases Number.mem_short clear member with digit | rfl | rfl | rfl
    · exact inOperand_of_class (Or.inl digit)
    all_goals rfl
  | name x => exact inOperand_of_class (Or.inr (CharClass.of_letter (clear.2 c member)))
  | _ => cases operand

/-- A word begins with a letter, a number does not. -/
theorem head_written (operand : t.isOperand = true) (clear : t.Recognisable) :
    ∃ c cs, t.written Number.short = c :: cs ∧
      (CharClass.of c = .letter ↔ t.isVariable = true) := by
  cases t with
  | literal v =>
    obtain ⟨c, cs, text, digit⟩ := Number.head_unsignedText clear
    have whole : (literal v).written Number.short =
        (if Number.isSigned v then ['-'] else []) ++ c :: cs := by
      rw [← text, ← Number.toList_short]
      rfl
    rw [whole]
    cases Number.isSigned v with
    | true =>
      have minus : CharClass.of '-' ≠ .letter := by decide
      exact ⟨'-', c :: cs, rfl, by simp [minus, isVariable]⟩
    | false => exact ⟨c, cs, rfl, by simp [digit, isVariable]⟩
  | name x =>
    obtain ⟨c, cs, text⟩ := List.exists_cons_of_ne_nil clear.1
    have letter := CharClass.of_letter (clear.2 c (by simp [text]))
    exact ⟨c, cs, text, by simp [letter, isVariable]⟩
  | _ => cases operand

/-- An operand is told by its text. -/
theorem eq_of_written (operand : t.isOperand = true) (operand' : u.isOperand = true)
    (clear : t.Recognisable) (clear' : u.Recognisable)
    (same : t.written Number.short = u.written Number.short) : t = u := by
  obtain ⟨c, cs, text, letter⟩ := head_written operand clear
  obtain ⟨c', cs', text', letter'⟩ := head_written operand' clear'
  have kinds : t.isVariable = true ↔ u.isVariable = true := by
    rw [same, text'] at text
    obtain ⟨rfl, -⟩ := List.cons.inj text
    rw [← letter, letter']
  cases t with
  | literal v =>
    cases u with
    | literal w => rw [Number.short_injective clear clear' (String.toList_inj.mp same)]
    | name x => exact absurd (kinds.mpr rfl) Bool.false_ne_true
    | _ => cases operand'
  | name x =>
    cases u with
    | literal w => exact absurd (kinds.mp rfl) Bool.false_ne_true
    | name y => exact congrArg name (String.toList_inj.mp same)
    | _ => cases operand'
  | _ => cases operand

end Token

/-! ### Reading a text in one way -/

section Unique

variable {t u : Token Float} {ts us : List (Token Float)}

/-- After an operand the text ends, or goes on with a blank or a parenthesis. -/
theorem stop_of_alternates (alternate : alternates false ts = true) :
    ∀ c ∈ (writtenAll Number.short ts).head?, inOperand c = false := by
  cases ts with
  | nil => exact nofun
  | cons t ts =>
    rcases alternates_done alternate with ⟨op, rfl, -⟩ | ⟨rfl, -⟩
    all_goals
      rintro c ⟨⟩
      rfl

theorem head_of_operand (ts : List (Token Float)) (operand : t.isOperand = true)
    (clear : t.Recognisable) :
    ∃ c cs, writtenAll Number.short (t :: ts) = c :: cs ∧ inOperand c = true := by
  obtain ⟨c, cs, text, -⟩ := t.head_written operand clear
  have inside := t.inOperand_of_mem_written operand clear c (by simp [text])
  exact ⟨c, cs ++ writtenAll Number.short ts, by simp [writtenAll, text], inside⟩

theorem written_ne_nil {due : Bool} (alternate : alternates due (t :: ts) = true)
    (clear : t.Recognisable) : writtenAll Number.short (t :: ts) ≠ [] := by
  cases due with
  | true =>
    rcases alternates_due alternate with ⟨operand, -⟩ | ⟨rfl, -⟩
    · obtain ⟨c, cs, text, -⟩ := head_of_operand ts operand clear
      rw [text]
      exact List.cons_ne_nil c cs
    · exact List.cons_ne_nil _ _
  | false =>
    rcases alternates_done alternate with ⟨op, rfl, -⟩ | ⟨rfl, -⟩
    all_goals exact List.cons_ne_nil _ _

section First

variable (same : writtenAll Number.short (t :: ts) = writtenAll Number.short (u :: us))
include same

/-- Where an operand is due, a parenthesis is told from it by its first character. -/
theorem first_of_due (clear : t.Recognisable) (clear' : u.Recognisable)
    (alternate : alternates true (t :: ts) = true) (alternate' : alternates true (u :: us) = true) :
    t = u ∧ writtenAll Number.short ts = writtenAll Number.short us ∧
      ∃ due, alternates due ts = true ∧ alternates due us = true := by
  rcases alternates_due alternate with ⟨operand, later⟩ | ⟨rfl, later⟩
  · rcases alternates_due alternate' with ⟨operand', later'⟩ | ⟨rfl, -⟩
    · obtain ⟨first, rest⟩ := append_inj_of_stop (Token.inOperand_of_mem_written operand clear)
        (Token.inOperand_of_mem_written operand' clear') (stop_of_alternates later)
        (stop_of_alternates later') same
      exact ⟨Token.eq_of_written operand operand' clear clear' first, rest, false, later,
        later'⟩
    · obtain ⟨c, cs, text, inside⟩ := head_of_operand ts operand clear
      obtain ⟨rfl, -⟩ := List.cons.inj (text.symm.trans same)
      cases inside
  · rcases alternates_due alternate' with ⟨operand', -⟩ | ⟨rfl, later'⟩
    · obtain ⟨c, cs, text, inside⟩ := head_of_operand us operand' clear'
      obtain ⟨rfl, -⟩ := List.cons.inj (text.symm.trans same.symm)
      cases inside
    · exact ⟨rfl, (List.cons.inj same).2, true, later, later'⟩

/-- After an operand, the blank before an operator tells it from a parenthesis. -/
theorem first_of_done (alternate : alternates false (t :: ts) = true)
    (alternate' : alternates false (u :: us) = true) :
    t = u ∧ writtenAll Number.short ts = writtenAll Number.short us ∧
      ∃ due, alternates due ts = true ∧ alternates due us = true := by
  rcases alternates_done alternate with ⟨op, rfl, later⟩ | ⟨rfl, later⟩
  · rcases alternates_done alternate' with ⟨op', rfl, later'⟩ | ⟨rfl, -⟩
    · obtain ⟨-, same⟩ := List.cons.inj same
      obtain ⟨symbol, same⟩ := List.cons.inj same
      have equal : op = op' := by
        revert symbol
        cases op <;> cases op' <;> decide
      exact ⟨by rw [equal], (List.cons.inj same).2, true, later, later'⟩
    · cases (List.cons.inj same).1
  · rcases alternates_done alternate' with ⟨op, rfl, -⟩ | ⟨rfl, later'⟩
    · cases (List.cons.inj same).1
    · exact ⟨rfl, (List.cons.inj same).2, false, later, later'⟩

end First

/-- The text of alternating tokens tells them. -/
theorem tokens_of_written {due : Bool} (alternate : alternates due ts = true)
    (alternate' : alternates due us = true) (clear : ∀ t ∈ ts, t.Recognisable)
    (clear' : ∀ t ∈ us, t.Recognisable)
    (same : writtenAll Number.short ts = writtenAll Number.short us) : ts = us := by
  induction ts generalizing due us with
  | nil =>
    cases us with
    | nil => rfl
    | cons u us =>
      have some_text := written_ne_nil alternate' (clear' u List.mem_cons_self)
      exact absurd same.symm some_text
  | cons t ts ih =>
    cases us with
    | nil => exact absurd same (written_ne_nil alternate (clear t List.mem_cons_self))
    | cons u us =>
      obtain ⟨here, after⟩ := List.forall_mem_cons.mp clear
      obtain ⟨here', after'⟩ := List.forall_mem_cons.mp clear'
      -- what is due here is the same for both, and so is what is due after the first token
      have first : t = u ∧ writtenAll Number.short ts = writtenAll Number.short us ∧
          ∃ due, alternates due ts = true ∧ alternates due us = true := by
        cases due with
        | true => exact first_of_due same here here' alternate alternate'
        | false => exact first_of_done same alternate alternate'
      obtain ⟨rfl, rest, due', later, later'⟩ := first
      rw [ih later later' after after' rest]

end Unique

/-! ### Expressions -/

namespace Expr

theorem infixTokens_asParsed (e : Expr α) : e.asParsed.infixTokens = e.infixTokens := by
  have beside (op : Op) (first : Bool) (e : Expr α) (ts : List (Token α)) :
      e.asParsed.beside op first parenthesized ts = e.beside op first parenthesized ts := by
    cases e <;> rfl
  induction e with
  | lit v => rfl
  | var x => rfl
  | node o op l r ihl ihr => rw [asParsed, infixTokens, infixTokens, ihl, ihr, beside, beside]

theorem alternates_infixTokens (e : Expr α) : alternates true e.infixTokens = true :=
  (derives_iff.mp ⟨_, e.derives_sum_infixTokens⟩).1

/-- What holds of parentheses, of read operators and of the operands of an expression holds of the
tokens of its infix text. -/
theorem forall_infixTokens {p : Token α → Prop} {e : Expr α} (opened : p .openParen)
    (closed : p .closeParen) (operators : ∀ op, p (.operator .parsed op))
    (names : ∀ x ∈ e.names, p (.name x)) (literals : ∀ v ∈ e.literals, p (.literal v)) :
    ∀ t ∈ e.infixTokens, p t := by
  have beside (op : Op) (first : Bool) (e : Expr α) {ts : List (Token α)} (all : ∀ t ∈ ts, p t) :
      ∀ t ∈ e.beside op first parenthesized ts, p t := by
    unfold beside
    split
    · intro t member
      simp only [parenthesized, List.cons_append, List.mem_cons, List.mem_append,
        List.not_mem_nil, or_false] at member
      rcases member with rfl | inside | rfl
      · exact opened
      · exact all t inside
      · exact closed
    · exact all
  induction e with
  | lit v => exact List.forall_mem_singleton.mpr (literals v List.mem_cons_self)
  | var x => exact List.forall_mem_singleton.mpr (names x List.mem_cons_self)
  | node o op l r ihl ihr =>
    simp only [names_node, Expr.literals, List.forall_mem_append] at names literals
    rw [infixTokens, List.forall_mem_append, List.forall_mem_cons]
    exact ⟨beside op true l (ihl names.1 literals.1), operators op,
      beside op false r (ihr names.2 literals.2)⟩

end Expr

/-- Expressions of words and finite numbers have the same infix text only if they differ in nothing
but whether operators were read or introduced. -/
theorem infixText_inj {e e' : Expr Float} (words : ∀ x ∈ e.names, IsWord x)
    (words' : ∀ x ∈ e'.names, IsWord x) (finite : ∀ v ∈ e.literals, Number.isFinite v = true)
    (finite' : ∀ v ∈ e'.literals, Number.isFinite v = true) :
    ∃ text text', e.toTree.infixText none = .ok text ∧ e'.toTree.infixText none = .ok text' ∧
      (text = text' ↔ e.asParsed = e'.asParsed) := by
  refine ⟨_, _, infixText_toTree e, infixText_toTree e', ?_, ?_⟩
  · intro same
    have chars := congrArg String.toList same
    rw [e.toList_infixText, e'.toList_infixText, e.infixChars_eq, e'.infixChars_eq] at chars
    have clear {e : Expr Float} (words : ∀ x ∈ e.names, IsWord x)
        (finite : ∀ v ∈ e.literals, Number.isFinite v = true) :
        ∀ t ∈ e.infixTokens, t.Recognisable :=
      Expr.forall_infixTokens trivial trivial (fun _ => trivial) words finite
    -- the text tells the tokens, and the grammar derives one expression from these
    have tokens := tokens_of_written e.alternates_infixTokens e'.alternates_infixTokens
      (clear words finite) (clear words' finite') chars
    have derived := e.derives_sum_infixTokens
    rw [tokens] at derived
    exact derived.unique e'.derives_sum_infixTokens
  · intro same
    rw [← String.toList_inj, e.toList_infixText, e'.toList_infixText, e.infixChars_eq,
      e'.infixChars_eq, ← e.infixTokens_asParsed, same, e'.infixTokens_asParsed]

/-- The same operators, read or introduced, between a negative number with an exponent and a
negative zero. -/
theorem infixText_inj_of_signs :
    let e (o : Origin) : Expr Float :=
      .node o .sub (.lit (-1e16)) (.node o .pow (.var "x") (.lit (-0)))
    (∀ o, (∀ x ∈ (e o).names, IsWord x) ∧ ∀ v ∈ (e o).literals, Number.isFinite v = true) ∧
      (e .introduced).toTree.infixText none = .ok "-1e+16 - x ^ -0" ∧
      (e .parsed).asParsed = (e .introduced).asParsed ∧
      ∃ text text', (e .parsed).toTree.infixText none = .ok text ∧
        (e .introduced).toTree.infixText none = .ok text' ∧
        (text = text' ↔ (e .parsed).asParsed = (e .introduced).asParsed) := by
  intro e
  have words (o : Origin) : ∀ x ∈ (e o).names, IsWord x := by
    intro x member
    have same : x = "x" := by simpa [e] using member
    rw [same]
    decide
  have finite (o : Origin) : ∀ v ∈ (e o).literals, Number.isFinite v = true := by
    intro v member
    have either : v = -1e16 ∨ v = -0 := by simpa [e, Expr.literals] using member
    rcases either with rfl | rfl
    · decide +kernel
    · decide +kernel
  have written : (e .introduced).toTree.infixText none = .ok "-1e+16 - x ^ -0" := by
    rw [infixText_toTree]
    rfl
  exact ⟨fun o => ⟨words o, finite o⟩, written, rfl,
    infixText_inj (words .parsed) (words .introduced) (finite .parsed) (finite .introduced)⟩

end Equate
