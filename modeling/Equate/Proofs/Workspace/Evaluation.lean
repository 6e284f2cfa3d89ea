import Equate.Proofs.Workspace.WellFormed

/-!
# Evaluation with a stack of values

Evaluation walks a tree and keeps the values of the operands read so far on one stack for the whole
tree. `eval_meaning`: the value is the one that recursion over the tree gives, and without a value
the leftmost variable that lacks one is told. Below every operator on the way its two operands lie
on the stack (`operands_on_stack`), above whatever was there before the walk came to its subtree.
-/

namespace Equate

variable {α β ε : Type}

namespace Expr

def meaning [Arithmetic α] (values : String → α) : Expr α → α
  | lit v => v
  | var x => values x
  | node _ op l r => Arithmetic.apply op (l.meaning values) (r.meaning values)

/-! ### The stack on the way -/

section Stack

variable {leaf : Token α → Except ε β} {apply : Op → List β → Except ε β}

/-- A pass that comes past the tokens of an expression goes on with one result more. -/
theorem goes_on_of_reached {e : Expr α} {below stack : List β} {later : List (Token α)}
    (reached : (e.toRpn ++ later).foldlM (Rpn.reduceStep leaf apply) below = .ok stack) :
    ∃ b, later.foldlM (Rpn.reduceStep leaf apply) (b :: below) = .ok stack := by
  rw [foldlM_reduceStep] at reached
  cases read : e.readM leaf apply with
  | error f =>
    rw [read] at reached
    cases reached
  | ok b =>
    rw [read] at reached
    exact ⟨b, reached⟩

/-- When a pass over the tokens of an expression comes to an operator, the results of its two
operands are on the stack, above what was there before the expression. -/
theorem operands_on_stack {e : Expr α} {below stack : List β} {read rest : List (Token α)}
    {o : Origin} {op : Op} (split : e.toRpn = read ++ .operator o op :: rest)
    (reached : read.foldlM (Rpn.reduceStep leaf apply) below = .ok stack) :
    ∃ a b more, stack = b :: a :: (more ++ below) := by
  induction e generalizing below stack read rest with
  | lit v => cases read <;> simp at split
  | var x => cases read <;> simp at split
  | node o' op' l r ihl ihr =>
    rw [toRpn_node, List.append_assoc] at split
    -- the operator stands in the left operand, in the right one, or is the one of this node
    rcases append_eq_append_cons split with ⟨rest', left⟩ | ⟨read', rfl, later⟩
    · exact ihl left reached
    obtain ⟨a, reached⟩ := goes_on_of_reached reached
    rcases append_eq_append_cons later with ⟨rest', right⟩ | ⟨read'', rfl, last⟩
    · -- inside the right operand the result of the left one is part of what lies below
      obtain ⟨a', b, more, rfl⟩ := ihr right reached
      exact ⟨a', b, more ++ [a], by simp⟩
    · obtain ⟨b, reached⟩ := goes_on_of_reached reached
      cases read'' with
      | nil => exact ⟨a, b, [], (Except.ok.inj reached).symm⟩
      | cons t ts => simp at last

end Stack

/-! ### The value -/

section Value

variable [Arithmetic α] {env : Env α} {values : String → α}

theorem eval_meaning_of_bound {e : Expr α} (bound : ∀ x ∈ e.names, env x = some (values x)) :
    e.eval env = .ok (e.meaning values) := by
  induction e with
  | lit v => rfl
  | var x => exact eval_var_some env (bound x (by simp))
  | node o op l r ihl ihr =>
    have left := ihl fun x present => bound x (by simp [present])
    have right := ihr fun x present => bound x (by simp [present])
    exact eval_node_ok left right

theorem eval_leftmost {e : Expr α} {x : String} {before after : List String}
    (split : e.names = before ++ x :: after) (bound : ∀ y ∈ before, (env y).isSome)
    (unbound : env x = none) : e.eval env = .error (.expression (.unresolved x)) := by
  have first : e.unbound? env = some x := by
    rw [unbound?, split, List.find?_append, List.find?_eq_none.mpr, List.find?_cons_of_pos]
    · rfl
    · simp [unbound]
    · intro y earlier
      simp [Option.isSome_iff_ne_none.mp (bound y earlier)]
  have failed := e.eval_of_unbound? env
  rwa [first] at failed

end Value

end Expr

/-! ### Trees -/

namespace Tree

structure Evaluates [Arithmetic α] (env : Env α) (t : Tree (Token α)) (e : Expr α) : Prop where
  /-- With values for all variables the result is that of recursion, alone on the stack. -/
  bound : ∀ values, (∀ x ∈ e.names, env x = some (values x)) →
    Rpn.reduceM (Rpn.leafValue env) Rpn.applyOp t.toRpn = .ok [e.meaning values] ∧
    Rpn.eval env t.toRpn = .ok (e.meaning values) ∧ e.tryFold env = some (e.meaning values)
  /-- Otherwise the leftmost variable without a value is told. -/
  unbound : ∀ before x after, e.names = before ++ x :: after → (∀ y ∈ before, (env y).isSome) →
    env x = none →
    Rpn.eval env t.toRpn = .error (.expression (.unresolved x)) ∧ e.tryFold env = none
  /-- An operator that the walk comes to has its operands on the stack. -/
  supplied : ∀ read o op rest stack, t.toRpn = read ++ .operator o op :: rest →
    Rpn.reduceM (Rpn.leafValue env) Rpn.applyOp read = .ok stack → op.arity ≤ stack.length
  /-- A workspace with the tree stays as it is. -/
  unchanged : ∀ (w : Workspace α) (id : Nat), w.Holds id e →
    effect (Work.eval env id) w = (Rpn.eval env t.toRpn, w)

/-- Every well-formed tree is that of an expression, and its evaluation agrees with the recursive
value of the expression, or tells the leftmost variable that has no value. -/
theorem eval_meaning [Arithmetic α] {t : Tree (Token α)} (wellFormed : t.WellFormed)
    (env : Env α) : ∃ e : Expr α, t = e.toTree ∧ t.Evaluates env e := by
  obtain ⟨e, rfl⟩ := wellFormed.exists_expr
  refine ⟨e, rfl, ?_, ?_, ?_, ?_⟩
  all_goals rw [e.toRpn_toTree]
  · intro values bound
    have value := Expr.eval_meaning_of_bound bound
    refine ⟨?_, value, ?_⟩
    · rw [Expr.eval_eq_readM] at value
      rw [Expr.reduceM_toRpn, value]
      rfl
    · unfold Expr.tryFold
      rw [value]
      rfl
  · intro before x after split bound unbound
    have failed := Expr.eval_leftmost split bound unbound
    refine ⟨failed, ?_⟩
    unfold Expr.tryFold
    rw [failed]
    rfl
  · intro read o op rest stack split reached
    obtain ⟨a, b, more, rfl⟩ := Expr.operands_on_stack split reached
    simp [Op.arity]
  · intro w id holds
    exact Work.effect_eval holds

/-- In `x - 2 ^ y` the power is worked out above the value of `x`. Without values for `x` and `y`
the walk ends at `x`. -/
theorem eval_meaning_of_power :
    let e : Expr Float := .node .parsed .sub (.var "x")
      (.node .parsed .pow (.lit 2) (.var "y"))
    let env : Env Float := fun x => if x = "x" then some 10 else if x = "y" then some 3 else none
    e.toTree.WellFormed ∧
      (∃ e' : Expr Float, e.toTree = e'.toTree ∧ e.toTree.Evaluates env e') ∧
      ∃ e' : Expr Float, e.toTree = e'.toTree ∧ e.toTree.Evaluates (fun _ => none) e' := by
  intro e env
  have wellFormed := wellFormed_toTree e
  exact ⟨wellFormed, eval_meaning wellFormed env, eval_meaning wellFormed fun _ => none⟩

end Tree

end Equate
