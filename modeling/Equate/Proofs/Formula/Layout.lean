import Equate.Proofs.Formula.Grammar
import Equate.Proofs.Token.Spelling
import Mathlib.Algebra.GroupWithZero.Nat

/-!
# Infix texts and what they spell

The infix text of an expression spells tokens (`spells_infixChars`) from which the grammar derives
the expression, its operators now taken as read (`derives_infixTokens`). The parentheses in it are
those that the grammar needs: an operand stands alone exactly where its level may stand.
-/

namespace Equate

variable {α β : Type}

namespace Expr

/-! ### Parentheses -/

/-- How strongly the outermost operator binds; a leaf binds more strongly than any. -/
def strength : Expr α → Nat
  | node _ op _ _ => op.precedence
  | _ => 5

theorem strength_node (o : Origin) (op : Op) (l r : Expr α) :
    (node o op l r).strength = op.precedence := rfl

def needsParens (op : Op) (first : Bool) (e : Expr α) : Bool :=
  e.strength < op.precedence || (!first && e.strength == op.precedence)

/-- The written form of an expression as an operand, with `wrap` to put parentheses around it. -/
def beside (op : Op) (first : Bool) (wrap : β → β) (e : Expr α) (written : β) : β :=
  if e.needsParens op first then wrap written else written

def infixChars (lit : α → String) : Expr α → List Char
  | node _ op l r =>
    l.beside op true bracketed (l.infixChars lit) ++ spaced op ++
      r.beside op false bracketed (r.infixChars lit)
  | e => (e.token.text lit).toList

def parenthesized (ts : List (Token α)) : List (Token α) := .openParen :: ts ++ [.closeParen]

/-- The tokens of an infix text in which a literal stands as the tokens that `leaf` gives. -/
def infixPieces (leaf : α → List (Token α)) : Expr α → List (Token α)
  | lit v => leaf v
  | var x => [.name x]
  | node _ op l r =>
    l.beside op true parenthesized (l.infixPieces leaf) ++
      .operator .parsed op :: r.beside op false parenthesized (r.infixPieces leaf)

def infixTokens : Expr α → List (Token α)
  | node _ op l r =>
    l.beside op true parenthesized l.infixTokens ++
      .operator .parsed op :: r.beside op false parenthesized r.infixTokens
  | e => [e.token]

/-! ### The text -/

theorem under_eq (op : Op) (first : Bool) (e : Expr α) (cs : List Char) :
    Rpn.Phrase.under op first ⟨String.ofList cs, e.strength⟩ =
      String.ofList (e.beside op first bracketed cs) := by
  unfold Rpn.Phrase.under beside needsParens
  dsimp only
  simp only [Bool.or_eq_true, decide_eq_true_eq]
  split
  · simp [← String.toList_inj, bracketed]
  · rfl

theorem join_eq (o : Origin) (op : Op) (l r : Expr α) (cs ds : List Char) :
    Rpn.Phrase.join op [⟨String.ofList cs, l.strength⟩, ⟨String.ofList ds, r.strength⟩] =
      ⟨String.ofList (l.beside op true bracketed cs ++ spaced op ++ r.beside op false bracketed ds),
        (node o op l r).strength⟩ := by
  have text : op.text.toList = [op.symbol] := by cases op <;> rfl
  simp only [Rpn.Phrase.join, Rpn.Phrase.operands, List.map_cons, List.map_nil, under_eq,
    strength_node, Rpn.Phrase.mk.injEq, and_true]
  simp [← String.toList_inj, String.intercalate_cons_cons, text, spaced]

theorem toList_infixText (lit : α → String) (e : Expr α) :
    (e.infixText lit).toList = e.infixChars lit := by
  have read : Id.run (e.readM (fun t => pure (Rpn.Phrase.atom (t.text lit)))
      (fun op args => pure (Rpn.Phrase.join op args))) =
        ⟨String.ofList (e.infixChars lit), e.strength⟩ := by
    induction e with
    | lit v => simp [readM, infixChars, strength, Rpn.Phrase.atom]
    | var x => simp [readM, infixChars, strength, Rpn.Phrase.atom]
    | node o op l r ihl ihr =>
      rw [readM, infixChars, ← join_eq, ← ihl, ← ihr]
      rfl
  rw [infixText, Rpn.infixText, reduceM_toRpn]
  simp [read]

/-! ### What the text spells -/

def literals : Expr α → List α
  | lit v => [v]
  | var _ => []
  | node _ _ l r => l.literals ++ r.literals

section Spelling

variable {lit : α → String} {e : Expr α}

theorem solid_beside (op : Op) (first : Bool) (e : Expr α) {cs : List Char} (solid : Solid cs) :
    Solid (e.beside op first bracketed cs) := by
  unfold beside
  split
  · exact solid_bracketed cs
  · exact solid

theorem solid_infixChars (words : ∀ x ∈ e.names, IsWord x)
    (solid : ∀ v ∈ e.literals, Solid (lit v).toList) : Solid (e.infixChars lit) := by
  induction e with
  | lit v => exact solid v List.mem_cons_self
  | var x => exact (words x List.mem_cons_self).solid
  | node o op l r ihl ihr =>
    simp only [names_node, literals, List.forall_mem_append] at words solid
    exact solid_spaced op (solid_beside op true l (ihl words.1 solid.1))
      (solid_beside op false r (ihr words.2 solid.2))

theorem spells_beside [OfScientific α] (op : Op) (first : Bool) (e : Expr α) {cs : List Char}
    {ts : List (Token α)} (spelled : Spells cs ts) :
    Spells (e.beside op first bracketed cs) (e.beside op first parenthesized ts) := by
  unfold beside
  split
  · exact spelled.bracketed
  · exact spelled

theorem infixTokens_eq (e : Expr α) : e.infixTokens = e.infixPieces fun v => [.literal v] := by
  induction e with
  | lit v => rfl
  | var x => rfl
  | node o op l r ihl ihr => rw [infixTokens, infixPieces, ihl, ihr]

/-- What the text spells, if it is known for the text of every literal. -/
theorem spells_infixPieces [OfScientific α] {leaf : α → List (Token α)}
    (words : ∀ x ∈ e.names, IsWord x) (solid : ∀ v ∈ e.literals, Solid (lit v).toList)
    (spelled : ∀ v ∈ e.literals, Spells (lit v).toList (leaf v)) :
    Spells (e.infixChars lit) (e.infixPieces leaf) := by
  induction e with
  | lit v => exact spelled v List.mem_cons_self
  | var x => exact spells_word (words x List.mem_cons_self)
  | node o op l r ihl ihr =>
    simp only [names_node, literals, List.forall_mem_append] at words solid spelled
    have left := ihl words.1 solid.1 spelled.1
    have right := ihr words.2 solid.2 spelled.2
    exact Spells.spaced op (solid_beside op true l (solid_infixChars words.1 solid.1))
      (solid_beside op false r (solid_infixChars words.2 solid.2))
      (spells_beside op true l left) (spells_beside op false r right)

/-- The text spells the tokens if the text of every literal spells that literal. -/
theorem spells_infixChars [OfScientific α] (words : ∀ x ∈ e.names, IsWord x)
    (solid : ∀ v ∈ e.literals, Solid (lit v).toList)
    (spelled : ∀ v ∈ e.literals, Spells (lit v).toList [.literal v]) :
    Spells (e.infixChars lit) e.infixTokens := by
  rw [infixTokens_eq]
  exact spells_infixPieces words solid spelled

theorem wordCount_beside (op : Op) (first : Bool) (e : Expr α) (cs : List Char) :
    wordCount (e.beside op first bracketed cs) = wordCount cs := by
  unfold beside
  split
  · exact wordCount_bracketed cs
  · rfl

/-- The words of the text are the variables and the words in the texts of literals. -/
theorem wordCount_infixChars (words : ∀ x ∈ e.names, IsWord x)
    (solid : ∀ v ∈ e.literals, Solid (lit v).toList) :
    wordCount (e.infixChars lit) =
      e.names.length + (e.literals.map fun v => wordCount (lit v).toList).sum := by
  induction e with
  | lit v => simp [infixChars, token, Token.text, literals]
  | var x =>
    have word := words x List.mem_cons_self
    simp [infixChars, token, Token.text, literals, wordCount_word word]
  | node o op l r ihl ihr =>
    simp only [names_node, literals, List.forall_mem_append] at words solid
    rw [infixChars, wordCount_spaced op (solid_beside op true l (solid_infixChars words.1 solid.1))
      (solid_beside op false r (solid_infixChars words.2 solid.2))]
    rw [wordCount_beside, wordCount_beside, ihl words.1 solid.1, ihr words.2 solid.2]
    simp only [names_node, literals, List.length_append, List.map_append, List.sum_append]
    omega

end Spelling

/-! ### What the grammar derives from the tokens -/

/-- The expression with all its operators taken as read from a text. -/
def asParsed : Expr α → Expr α
  | node _ op l r => node .parsed op l.asParsed r.asParsed
  | e => e

def origins : Expr α → List Origin
  | node o _ l r => o :: l.origins ++ r.origins
  | _ => []

theorem asParsed_eq_self {e : Expr α} (parsed : ∀ o ∈ e.origins, o = .parsed) : e.asParsed = e := by
  induction e with
  | lit v => rfl
  | var x => rfl
  | node o op l r ihl ihr =>
    simp only [origins, List.cons_append, List.forall_mem_cons, List.forall_mem_append] at parsed
    rw [asParsed, ihl parsed.2.1, ihr parsed.2.2, parsed.1]

/-- The strongest nonterminal that derives the tokens of an expression. -/
def level : Expr α → Nonterminal
  | node _ .add _ _ | node _ .sub _ _ => .sum
  | node _ .mul _ _ | node _ .div _ _ => .product
  | node _ .pow _ _ => .power
  | _ => .atom

theorem strength_level (e : Expr α) : e.level.strength = min e.strength 4 := by
  cases e with
  | node o op l r => cases op <;> rfl
  | _ => rfl

end Expr

theorem Derives.lift {n k : Nonterminal} {ts : List (Token α)} {e : Expr α}
    (derived : Derives n ts e) (weaker : k.strength ≤ n.strength) : Derives k ts e := by
  cases n <;> cases k <;> first
    | exact derived
    | exact .operand derived
    | exact .operand (.operand derived)
    | exact .operand (.operand (.operand derived))
    | contradiction

namespace Expr

theorem derives_beside {n : Nonterminal} {op : Op} {first : Bool} {e : Expr α} {ts : List (Token α)}
    (derived : Derives e.level ts e.asParsed)
    (fits : e.needsParens op first = false → n.strength ≤ e.level.strength) :
    Derives n (e.beside op first parenthesized ts) e.asParsed := by
  unfold beside
  split
  · have whole : Derives .sum ts e.asParsed := derived.lift (by cases e.level <;> decide)
    exact (Derives.parens whole).lift (by cases n <;> decide)
  · rename_i alone
    exact derived.lift (fits (Bool.not_eq_true _ ▸ alone))

theorem derives_infixTokens (e : Expr α) : Derives e.level e.infixTokens e.asParsed := by
  induction e with
  | lit v => exact .literal v
  | var x => exact .name x
  | node o op l r ihl ihr =>
    have same : (node o op l r).level.strength = op.precedence := by cases op <;> rfl
    have next : (node o op l r).level.operand.strength = op.precedence + 1 := by cases op <;> rfl
    have few : op.precedence + 1 ≤ 4 := by cases op <;> decide
    have listed := Nonterminal.mem_of_precedence same.symm
    refine .operation listed (derives_beside ihl ?_) (derives_beside ihr ?_)
    · -- a first operand of the same level needs no parentheses: operators group from the left
      intro alone
      have strong : op.precedence ≤ l.strength := by simpa [needsParens] using alone
      rw [same, strength_level]
      omega
    · intro alone
      have strong : op.precedence ≤ r.strength ∧ r.strength ≠ op.precedence := by
        simpa [needsParens] using alone
      rw [next, strength_level]
      omega

theorem derives_sum_infixTokens (e : Expr α) : Derives .sum e.infixTokens e.asParsed :=
  e.derives_infixTokens.lift (by cases e.level <;> decide)

end Expr

end Equate
