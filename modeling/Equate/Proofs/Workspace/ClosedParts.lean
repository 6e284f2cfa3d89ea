import Equate.Proofs.Solving.Course
import Equate.Proofs.Workspace.FoldOrder

/-!
# Closed parts

An operation is closed if every variable below it has a value. Folding all nodes of a tree looks at
one node at a time and at no more than its two operands. What comes of it is told here by the paths
that lead to the nodes: a closed operation below no other one becomes its value, what was below it
is gone, and every other node has the token that it had (`Expr.FoldsClosed`). Only one expression is
like that (`FoldsClosed.unique`), and it is the one that an entry holds after it has been folded:
`simplify_folds_closed`.
-/

namespace Equate

variable {α : Type}

namespace Expr

/-! ### Subexpressions -/

def at? : List Slot → Expr α → Option (Expr α)
  | [], e => some e
  | slot :: path, node _ _ l r => (slot.pick l r).at? path
  | _ :: _, _ => none

@[simp] theorem at?_nil (e : Expr α) : e.at? [] = some e := rfl

@[simp] theorem at?_node (o : Origin) (op : Op) (l r : Expr α) (slot : Slot) (path : List Slot) :
    (node o op l r).at? (slot :: path) = (slot.pick l r).at? path := rfl

/-- Expressions with the same tokens at the same places are the same. -/
theorem eq_of_tokens {e e' : Expr α}
    (same : ∀ path, (e.at? path).map token = (e'.at? path).map token) : e = e' := by
  induction e generalizing e' with
  | lit v =>
    have root := same []
    cases e' <;> simp_all [token]
  | var x =>
    have root := same []
    cases e' <;> simp_all [token]
  | node o op l r ihl ihr =>
    have root : Token.operator o op = e'.token := Option.some.inj (same [])
    cases e' with
    | lit v => cases root
    | var x => cases root
    | node o' op' l' r' =>
      cases root
      have left : l = l' := ihl fun path => same (.left :: path)
      have right : r = r' := ihr fun path => same (.right :: path)
      rw [left, right]

/-! ### Closed operations -/

/-- Whether the expression is an operation below which every variable has a value. -/
def Closed (env : Env α) (e : Expr α) : Prop :=
  e.isLeaf = false ∧ ∀ x ∈ e.names, (env x).isSome

def ClosedAt (env : Env α) (e : Expr α) (path : List Slot) : Prop :=
  ∃ sub, e.at? path = some sub ∧ sub.Closed env

def Covered (env : Env α) (e : Expr α) (path : List Slot) : Prop :=
  ∃ above, above <+: path ∧ above ≠ path ∧ e.ClosedAt env above

variable {env : Env α}

theorem closedAt_nil {e : Expr α} : e.ClosedAt env [] ↔ e.Closed env := by
  simp [ClosedAt]

theorem not_covered_nil (e : Expr α) : ¬ e.Covered env [] := by
  rintro ⟨above, before, other, -⟩
  exact other (List.prefix_nil.mp before)

theorem covered_cons {o : Origin} {op : Op} {l r : Expr α} {slot : Slot} {path : List Slot} :
    (node o op l r).Covered env (slot :: path) ↔
      (node o op l r).Closed env ∨ (slot.pick l r).Covered env path := by
  constructor
  · rintro ⟨above, before, other, closed⟩
    cases above with
    | nil => exact Or.inl (closedAt_nil.mp closed)
    | cons first above =>
      obtain ⟨rfl, shorter⟩ := List.cons_prefix_cons.mp before
      exact Or.inr ⟨above, shorter, fun same => other (by rw [same]), closed⟩
  · rintro (closed | ⟨above, before, other, closed⟩)
    · exact ⟨[], List.nil_prefix, (List.cons_ne_nil _ _).symm, closedAt_nil.mpr closed⟩
    · exact ⟨slot :: above, List.cons_prefix_cons.mpr ⟨rfl, before⟩,
        fun same => other (List.cons.inj same).2, closed⟩

theorem exists_unbound {e : Expr α} (inner : e.isLeaf = false) (unclosed : ¬ e.Closed env) :
    ∃ x ∈ e.names, env x = none := by
  cases missing : e.unbound? env with
  | none => exact absurd ⟨inner, unbound?_eq_none_iff.mp missing⟩ unclosed
  | some x => exact ⟨x, unbound?_eq_some missing⟩

/-- What it means that the closed operations of `e`, the largest ones, were replaced by their values
and nothing else was changed. -/
structure FoldsClosed [Arithmetic α] (env : Env α) (e e' : Expr α) : Prop where
  replaced : ∀ path sub, e.at? path = some sub → sub.Closed env → ¬ e.Covered env path →
    ∃ v, sub.eval env = .ok v ∧ e'.at? path = some (lit v)
  gone : ∀ path, e.Covered env path → e'.at? path = none
  kept : ∀ path, ¬ e.ClosedAt env path → ¬ e.Covered env path →
    (e'.at? path).map token = (e.at? path).map token

variable [Arithmetic α] {e e' : Expr α}

theorem FoldsClosed.unique {e'' : Expr α} (first : e.FoldsClosed env e')
    (second : e.FoldsClosed env e'') : e' = e'' := by
  refine eq_of_tokens fun path => ?_
  by_cases covered : e.Covered env path
  · rw [first.gone path covered, second.gone path covered]
  · by_cases closed : e.ClosedAt env path
    · obtain ⟨sub, found, closed⟩ := closed
      obtain ⟨v, value, literal⟩ := first.replaced path sub found closed covered
      obtain ⟨v', value', literal'⟩ := second.replaced path sub found closed covered
      obtain rfl := Except.ok.inj (value.symm.trans value')
      rw [literal, literal']
    · rw [first.kept path closed covered, second.kept path closed covered]

/-! ### What folding all nodes does -/

theorem simplify_of_closed (closed : e.Closed env) :
    ∃ v, e.eval env = .ok v ∧ e.simplify env = lit v := by
  obtain ⟨inner, bound⟩ := closed
  obtain ⟨v, value⟩ := eval_ok bound
  cases e with
  | node o op l r => exact ⟨v, value, simplify_node_of_eval_ok value⟩
  | _ => cases inner

/-- An operation that is not closed keeps its operands, which are folded each on its own. -/
theorem simplify_of_not_closed {o : Origin} {op : Op} {l r : Expr α}
    (unclosed : ¬ (node o op l r).Closed env) :
    (node o op l r).simplify env = node o op (l.simplify env) (r.simplify env) := by
  obtain ⟨x, present, unbound⟩ := exists_unbound rfl unclosed
  exact simplify_node_of_unbound present unbound

theorem at?_simplify {path : List Slot} (uncovered : ¬ e.Covered env path) :
    (e.simplify env).at? path = (e.at? path).map (simplify env) := by
  induction path generalizing e with
  | nil => rfl
  | cons slot path ih =>
    cases e with
    | lit v => rfl
    | var x => rfl
    | node o op l r =>
      rw [covered_cons, not_or] at uncovered
      obtain ⟨unclosed, uncovered⟩ := uncovered
      rw [simplify_of_not_closed unclosed, at?_node, at?_node, ← ih uncovered]
      cases slot <;> rfl

theorem at?_simplify_of_covered {path : List Slot} (covered : e.Covered env path) :
    (e.simplify env).at? path = none := by
  induction path generalizing e with
  | nil => exact absurd covered (not_covered_nil e)
  | cons slot path ih =>
    by_cases closed : e.Closed env
    · obtain ⟨v, -, literal⟩ := simplify_of_closed closed
      rw [literal]
      rfl
    · cases e with
      | lit v => rfl
      | var x => rfl
      | node o op l r =>
        have covered := (covered_cons.mp covered).resolve_left closed
        rw [simplify_of_not_closed closed, at?_node, ← ih covered]
        cases slot <;> rfl

theorem token_simplify (unclosed : ¬ e.Closed env) : (e.simplify env).token = e.token := by
  cases e with
  | lit v => rfl
  | var x => rfl
  | node o op l r => rw [simplify_of_not_closed unclosed]; rfl

theorem simplify_foldsClosed (env : Env α) (e : Expr α) : e.FoldsClosed env (e.simplify env) where
  replaced path sub found closed uncovered := by
    obtain ⟨v, value, literal⟩ := simplify_of_closed closed
    refine ⟨v, value, ?_⟩
    rw [at?_simplify uncovered, found, Option.map_some, literal]
  gone path covered := at?_simplify_of_covered covered
  kept path unclosed uncovered := by
    rw [at?_simplify uncovered]
    cases found : e.at? path with
    | none => rfl
    | some sub =>
      have whole : ¬ sub.Closed env := fun closed => unclosed ⟨sub, found, closed⟩
      exact congrArg some (token_simplify whole)

/-- Below every operation that is left there is a variable without a value. -/
theorem exists_unbound_of_at?_simplify {path : List Slot} {sub : Expr α}
    (found : (e.simplify env).at? path = some sub) (inner : sub.isLeaf = false) :
    ∃ x ∈ sub.names, env x = none := by
  have uncovered : ¬ e.Covered env path := by
    intro covered
    rw [at?_simplify_of_covered covered] at found
    cases found
  rw [at?_simplify uncovered] at found
  obtain ⟨before, -, rfl⟩ := Option.map_eq_some_iff.mp found
  have unclosed : ¬ before.Closed env := by
    intro closed
    obtain ⟨v, -, literal⟩ := simplify_of_closed closed
    rw [literal] at inner
    cases inner
  have innerBefore : before.isLeaf = false := by
    cases before with
    | node => rfl
    | _ => exact inner
  obtain ⟨x, present, unbound⟩ := exists_unbound innerBefore unclosed
  exact ⟨x, (mem_names_simplify unbound).mpr present, unbound⟩

end Expr

/-! ### Folding an entry -/

namespace Work

variable [Arithmetic α] {w : Workspace α} {id : Nat} {e : Expr α}

/-- Where every node has a token of its own, folding an entry never fails, and what the entry holds
then is its expression with the largest closed operations replaced by their values, and no other.
Every operation that is left has a variable without a value below it, and such variables occur as
often as before. -/
theorem simplify_folds_closed (own : w.graph.OwnTokens) (holds : w.Holds id e) (env : Env α) :
    ∃ w' e', effect (simplify env id) w = (.ok (), w') ∧ w'.Holds id e' ∧
      (∀ other, e.FoldsClosed env other ↔ other = e') ∧
      (∀ path sub, e'.at? path = some sub → sub.isLeaf = false → ∃ x ∈ sub.names, env x = none) ∧
      ∀ x, env x = none → e'.names.count x = e.names.count x := by
  obtain ⟨w', done, holds'⟩ := effect_simplify own holds env
  have folds := e.simplify_foldsClosed env
  refine ⟨w', e.simplify env, done, holds', fun other => ⟨?_, ?_⟩, ?_, ?_⟩
  · exact fun also => also.unique folds
  · rintro rfl
    exact folds
  · exact fun path sub found inner => Expr.exists_unbound_of_at?_simplify found inner
  · exact fun x unbound => Expr.count_names_simplify unbound

/-- `y * ((x + 2) - (x + 2))` with a value for `x` alone, where the two operands of the difference
are one node: the difference is the largest closed operation, and `y` is left. -/
theorem simplify_folds_closed_difference :
    let tokens : Array (Token Float) := #[.name "x", .literal 2, .operator .parsed .add,
      .operator .parsed .sub, .name "y", .operator .parsed .mul]
    let nodes : Array Links := #[⟨0, none⟩, ⟨1, none⟩, ⟨2, some (0, 1)⟩, ⟨3, some (2, 2)⟩,
      ⟨4, none⟩, ⟨5, some (4, 3)⟩]
    let w : Workspace Float := ⟨⟨tokens, nodes, by decide⟩, #[⟨5, []⟩]⟩
    let sum : Expr Float := .node .parsed .add (.var "x") (.lit 2)
    let difference : Expr Float := .node .parsed .sub sum sum
    let e : Expr Float := .node .parsed .mul (.var "y") difference
    let env : Env Float := fun x => if x = "x" then some 3 else none
    w.graph.OwnTokens ∧ w.Holds 0 e ∧ ∃ w' e' v, effect (simplify env 0) w = (.ok (), w') ∧
      w'.Holds 0 e' ∧ difference.eval env = .ok v ∧ e'.at? [.right] = some (.lit v) ∧
      e'.at? [.right, .left] = none ∧ e'.names.count "y" = 1 := by
  intro tokens nodes w sum difference e env
  have own : w.graph.OwnTokens := Graph.ownTokens_of_nodup (by decide)
  have holds : w.Holds 0 e := ⟨⟨5, []⟩, rfl, rfl⟩
  obtain ⟨w', e', done, holds', exactly, -, counts⟩ := simplify_folds_closed own holds env
  have folds : e.FoldsClosed env e' := (exactly e').mpr rfl
  have unclosed : ¬ e.Closed env := by
    rintro ⟨-, bound⟩
    exact absurd (bound "y" (by decide)) (by decide)
  have closed : difference.Closed env := ⟨rfl, by decide⟩
  have uncovered : ¬ e.Covered env [.right] := by
    rw [Expr.covered_cons, not_or]
    exact ⟨unclosed, Expr.not_covered_nil _⟩
  have below : e.Covered env [.right, .left] :=
    ⟨[.right], ⟨[.left], rfl⟩, by decide, difference, rfl, closed⟩
  obtain ⟨v, value, literal⟩ := folds.replaced [.right] difference rfl closed uncovered
  refine ⟨own, holds, w', e', v, done, holds', value, literal, folds.gone _ below, ?_⟩
  rw [counts "y" rfl]
  decide

end Work

end Equate
