import Equate.Proofs.Formula.Reach
import Equate.Proofs.Formula.RoundTrip

/-!
# Operands for every operator

Reading counts operands where the grammar asks for their order. `parse_of_balanced`: tokens with
matching parentheses are accepted exactly if there is one operand more than there are operators and,
at every place, fewer operators have given way than there are operands before, or none has.
-/

namespace Equate

variable {α : Type}

namespace Rpn

/-! ### Counts -/

/-- What a token does to the number of operands that wait for an operator. -/
def share : Token α → Int
  | .literal _ | .name _ => 1
  | .operator .. => -1
  | .openParen | .closeParen => 0

/-- How many operands there are more than operators. -/
def surplus (ts : List (Token α)) : Int := (ts.map share).sum

theorem surplus_cons (t : Token α) (ts : List (Token α)) :
    surplus (t :: ts) = share t + surplus ts := List.sum_cons

theorem surplus_append (ts us : List (Token α)) : surplus (ts ++ us) = surplus ts + surplus us := by
  rw [surplus, List.map_append, List.sum_append]
  rfl

theorem surplus_bare (ts : List (Token α)) : surplus (bare ts) = surplus ts := by
  induction ts with
  | nil => rfl
  | cons t ts ih =>
    have split : bare (t :: ts) = if t.isParen then bare ts else t :: bare ts := by
      cases t <;> rfl
    rw [split, surplus_cons]
    cases t <;> simp [Token.isParen, share, surplus_cons, ih]

theorem surplus_of_order {ts us : List (Token α)} (ordered : order ts = .ok us) :
    surplus us = surplus ts := by
  rw [← surplus_bare us, ← surplus_bare ts]
  exact ((perm_of_order ordered).map share).sum_eq

end Rpn

/-! ### Building -/

theorem Expr.isOk_build (stack : List (Expr α)) (ts : List (Token α)) :
    (build stack ts).isOk = true ↔
      Rpn.supplied stack.length ts = true ∧ (stack.length : Int) + Rpn.surplus ts = 1 := by
  induction ts generalizing stack with
  | nil =>
    have none_left : Rpn.surplus ([] : List (Token α)) = 0 := rfl
    rw [none_left, Rpn.supplied]
    rcases stack with _ | ⟨e, _ | ⟨e', below⟩⟩
    · simp [build, Except.isOk, Except.toBool]
    · simp [build, Except.isOk, Except.toBool]
    · simp [build, Except.isOk, Except.toBool]
      omega
  | cons t ts ih =>
    rw [Rpn.surplus_cons]
    cases t with
    | literal v =>
      rw [build, ih, Rpn.supplied, List.length_cons, Nat.cast_succ, Int.add_assoc]
      rfl
    | name x =>
      rw [build, ih, Rpn.supplied, List.length_cons, Nat.cast_succ, Int.add_assoc]
      rfl
    | openParen => simp [build, Rpn.supplied, Except.isOk, Except.toBool]
    | closeParen => simp [build, Rpn.supplied, Except.isOk, Except.toBool]
    | operator o op =>
      rcases stack with _ | ⟨r, _ | ⟨l, below⟩⟩
      · simp [build, Rpn.supplied, Except.isOk, Except.toBool]
      · simp [build, Rpn.supplied, Except.isOk, Except.toBool]
      · have enough : 2 ≤ (r :: l :: below).length := Nat.le_add_left 2 below.length
        have total : ((node o op l r :: below).length : Int) + Rpn.surplus ts =
            ((r :: l :: below).length : Int) +
              (Rpn.share (.operator o op : Token α) + Rpn.surplus ts) := by
          simp only [List.length_cons, Rpn.share]
          omega
        rw [build, ih, Rpn.supplied, decide_eq_true enough, Bool.true_and, total]
        rfl

/-- Tokens with matching parentheses are accepted exactly if they are supplied and have one operand
more than they have operators. A refusal is for a fault of grammar. -/
theorem parse_of_balanced [OfScientific α] {text : String} {ts : List (Token α)}
    (scanned : scan text = .ok ts) (closed : balanced 0 ts = true) :
    match (Formula.parse text : Except ExprError (Formula α)) with
    | .ok _ => Rpn.Supplies ts ∧ Rpn.surplus ts = 1
    | .error fault => fault.family = .grammar ∧ ¬ (Rpn.Supplies ts ∧ Rpn.surplus ts = 1) := by
  rw [← Rpn.isOk_order] at closed
  rw [parse_of_scan scanned]
  cases ordered : Rpn.order ts with
  | error fault =>
    rw [ordered] at closed
    cases closed
  | ok us =>
    have accepted := Expr.isOk_build [] us
    rw [List.length_nil, Nat.cast_zero, Int.zero_add, Rpn.surplus_of_order ordered,
      ← Rpn.supplies_iff ordered] at accepted
    cases built : Expr.ofRpn us with
    | error fault =>
      simp only [Formula.ofTokens, built, bind, Except.bind]
      refine ⟨Expr.build_error_family built, fun both => ?_⟩
      have done := accepted.mpr both
      rw [← Expr.ofRpn, built] at done
      cases done
    | ok e =>
      simp only [Formula.ofTokens, built, bind, Except.bind, pure, Except.pure]
      refine accepted.mp ?_
      rw [← Expr.ofRpn, built]
      rfl

end Equate
