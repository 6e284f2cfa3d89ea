import Equate.Proofs.Formula.Written

/-!
# Shapes and their parentheses

An expression is told by its shape and by its tokens from left to right (`eq_of_shape`). From tokens
with fewer parentheses than `infixTokens` has it cannot be derived (`openCount_le_of_derives`), yet
tokens without a pair of parentheses are still derived from something (`derives_without_parens`).
-/

namespace Equate

variable {α : Type}

/-! ### Shapes -/

inductive Shape where
  | leaf
  | node (left right : Shape)
  deriving DecidableEq

namespace Expr

def shape : Expr α → Shape
  | node _ _ l r => .node l.shape r.shape
  | _ => .leaf

def inorder : Expr α → List (Token α)
  | node o op l r => l.inorder ++ .operator o op :: r.inorder
  | e => [e.token]

theorem length_inorder_of_shape {e e' : Expr α} (same : e.shape = e'.shape) :
    e.inorder.length = e'.inorder.length := by
  induction e generalizing e' with
  | lit v => cases e' <;> first | rfl | cases same
  | var x => cases e' <;> first | rfl | cases same
  | node o op l r ihl ihr =>
    cases e' with
    | node o' op' l' r' =>
      obtain ⟨left, right⟩ := Shape.node.inj same
      simp [inorder, ihl left, ihr right]
    | _ => cases same

/-- An expression is told by its shape and its tokens. -/
theorem eq_of_shape {e e' : Expr α} (same : e.shape = e'.shape) (tokens : e.inorder = e'.inorder) :
    e = e' := by
  induction e generalizing e' with
  | lit v =>
    cases e' with
    | lit w => exact congrArg lit (Token.literal.inj (List.cons.inj tokens).1)
    | var x => cases tokens
    | node => cases same
  | var x =>
    cases e' with
    | lit v => cases tokens
    | var y => exact congrArg var (Token.name.inj (List.cons.inj tokens).1)
    | node => cases same
  | node o op l r ihl ihr =>
    cases e' with
    | node o' op' l' r' =>
      obtain ⟨left, right⟩ := Shape.node.inj same
      obtain ⟨first, rest⟩ := List.append_inj tokens (length_inorder_of_shape left)
      obtain ⟨here, last⟩ := List.cons.inj rest
      obtain ⟨rfl, rfl⟩ := Token.operator.inj here
      rw [ihl left first, ihr right last]
    | _ => cases same

theorem shape_asParsed (e : Expr α) : e.asParsed.shape = e.shape := by
  induction e with
  | lit v => rfl
  | var x => rfl
  | node o op l r ihl ihr => rw [asParsed, shape, shape, ihl, ihr]

end Expr

theorem bare_of_derives {n : Nonterminal} {ts : List (Token α)} {e : Expr α}
    (derived : Derives n ts e) : Rpn.bare ts = e.inorder := by
  induction derived with
  | operation listed left right ihl ihr =>
    rw [Rpn.bare_append, ihl, Expr.inorder, ← ihr]
    rfl
  | operand inner ih => exact ih
  | literal v => rfl
  | name x => rfl
  | parens inner ih =>
    rw [← ih, List.cons_append]
    simp [Rpn.bare, Token.isParen]

/-! ### How many parentheses are needed -/

theorem openCount_append (ts us : List (Token α)) :
    Rpn.openCount (ts ++ us) = Rpn.openCount ts + Rpn.openCount us := List.countP_append

theorem openCount_beside (op : Op) (first : Bool) (e : Expr α) (ts : List (Token α)) :
    Rpn.openCount (e.beside op first Expr.parenthesized ts) =
      Rpn.openCount ts + if e.needsParens op first then 1 else 0 := by
  unfold Expr.beside
  split
  · rw [Expr.parenthesized, List.cons_append, Rpn.openCount_open, openCount_append]
    rfl
  · rfl

/-- Tokens from which an expression is derived open as many parentheses as its own tokens at least,
and one more where it is too weak to stand alone. -/
theorem openCount_le_of_derives {n : Nonterminal} {us : List (Token α)} {e : Expr α}
    (derived : Derives n us e) :
    Rpn.openCount e.infixTokens + (if e.level.strength < n.strength then 1 else 0) ≤
      Rpn.openCount us := by
  induction derived with
  | @operation n op ts us l r listed left right ihl ihr =>
    have same := Nonterminal.precedence_of_mem listed
    have level : (Expr.node .parsed op l r).level.strength = n.strength := by
      rw [← same]
      cases op <;> rfl
    have next : n.operand.strength = op.precedence + 1 := by
      cases n <;> first | (rw [same]; rfl) | cases listed
    have few : op.precedence ≤ 3 := by cases op <;> decide
    have left : l.needsParens op true = true ↔ l.level.strength < n.strength := by
      rw [Expr.strength_level, ← same]
      simp only [Expr.needsParens, Bool.not_true, Bool.false_and, Bool.or_false, decide_eq_true_eq]
      omega
    have right : r.needsParens op false = true ↔ r.level.strength < n.operand.strength := by
      rw [Expr.strength_level, next]
      simp only [Expr.needsParens, Bool.not_false, Bool.true_and, Bool.or_eq_true,
        decide_eq_true_eq, beq_iff_eq]
      omega
    rw [level, if_neg (lt_irrefl _), Expr.infixTokens, openCount_append,
      Rpn.openCount_cons rfl, openCount_append, Rpn.openCount_cons rfl, openCount_beside,
      openCount_beside]
    simp only [left, right]
    omega
  | @operand n ts e inner ih =>
    have weaker := n.strength_operand
    split
    · rename_i low
      rwa [if_pos (by omega)] at ih
    · omega
  | literal v => exact Nat.le_refl 0
  | name x => exact Nat.le_refl 0
  | @parens ts e inner ih =>
    rw [List.cons_append, Rpn.openCount_open, openCount_append]
    split <;> omega

/-! ### Tokens without a pair of parentheses -/

/-- How alternating tokens go on does not depend on what was before but for what is due. -/
theorem alternates_append {due : Bool} {ts us : List (Token α)}
    (alternate : alternates due (ts ++ us) = true) : ∃ due', alternates due' us = true ∧
      ∀ vs, alternates due (ts ++ vs) = alternates due' vs := by
  induction ts generalizing due with
  | nil => exact ⟨due, alternate, fun vs => rfl⟩
  | cons t ts ih =>
    cases due with
    | true =>
      rcases alternates_due alternate with ⟨operand, later⟩ | ⟨rfl, later⟩
      · obtain ⟨due', rest, same⟩ := ih later
        refine ⟨due', rest, fun vs => ?_⟩
        cases t with
        | literal v => exact same vs
        | name x => exact same vs
        | _ => cases operand
      · obtain ⟨due', rest, same⟩ := ih later
        exact ⟨due', rest, same⟩
    | false =>
      rcases alternates_done alternate with ⟨op, rfl, later⟩ | ⟨rfl, later⟩
      all_goals
        obtain ⟨due', rest, same⟩ := ih later
        exact ⟨due', rest, same⟩

theorem balanced_inside {k : Nat} {vs : List (Token α)} (inside : balanced k vs = true)
    (depth : Nat) (rest : List (Token α)) :
    balanced (k + depth) (vs ++ rest) = balanced depth rest := by
  induction vs generalizing k with
  | nil =>
    obtain rfl : k = 0 := by simpa [balanced] using inside
    rw [Nat.zero_add, List.nil_append]
  | cons t vs ih =>
    cases t with
    | openParen =>
      have deeper := ih (k := k + 1) inside
      rwa [Nat.add_right_comm] at deeper
    | closeParen =>
      cases k with
      | zero => cases inside
      | succ k =>
        rw [Nat.add_right_comm]
        exact ih inside
    | _ => exact ih inside

theorem balanced_congr {us vs : List (Token α)}
    (same : ∀ depth, balanced depth us = balanced depth vs) (ts : List (Token α)) (depth : Nat) :
    balanced depth (ts ++ us) = balanced depth (ts ++ vs) := by
  induction ts generalizing depth with
  | nil => exact same depth
  | cons t ts ih =>
    cases t with
    | closeParen =>
      cases depth with
      | zero => rfl
      | succ depth => exact ih depth
    | _ => exact ih _

theorem derives_without_parens {us vs ws : List (Token α)} {e : Expr α}
    (derived : Derives .sum (us ++ .openParen :: (vs ++ .closeParen :: ws)) e)
    (inside : balanced 0 vs = true) : ∃ e', Derives .sum (us ++ (vs ++ ws)) e' := by
  obtain ⟨alternate, closed⟩ := derives_iff.mp ⟨e, derived⟩
  refine derives_iff.mpr ⟨?_, ?_⟩
  -- an operand is due before and after an opening parenthesis, none around a closing one
  · obtain ⟨due, opened, first⟩ := alternates_append alternate
    cases due with
    | false => cases opened
    | true =>
      have rest : alternates true (vs ++ .closeParen :: ws) = true := opened
      obtain ⟨due, ended, second⟩ := alternates_append rest
      cases due with
      | true => cases ended
      | false =>
        rw [first, second]
        exact ended
  · rw [← closed]
    refine balanced_congr (fun depth => ?_) us 0
    have plain := balanced_inside inside depth ws
    have nested := balanced_inside inside (depth + 1) (.closeParen :: ws)
    rw [Nat.zero_add] at plain nested
    exact plain.trans nested.symm

end Equate
