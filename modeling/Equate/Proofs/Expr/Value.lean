import Equate.Proofs.Expr.Postfix

/-!
# Values of expressions

The value of an expression by recursion, and when there is one: `eval_of_unbound?` tells that only
a variable without a value stands in the way, and that the leftmost such variable is reported.
-/

namespace Equate

variable {α : Type}

/-- Whether every variable with a value in `env` has the same value in `wide`. -/
def Env.Extends (wide env : Env α) : Prop := ∀ x v, env x = some v → wide x = some v

namespace Expr

/-! ### Variables without a value -/

def unbound? (env : Env α) (e : Expr α) : Option String := e.names.find? fun x => (env x).isNone

theorem unbound?_eq_none_iff {env : Env α} {e : Expr α} :
    e.unbound? env = none ↔ ∀ x ∈ e.names, (env x).isSome := by
  simp [unbound?, Option.isSome_iff_ne_none]

theorem unbound?_eq_some {env : Env α} {e : Expr α} {x : String} (first : e.unbound? env = some x) :
    x ∈ e.names ∧ env x = none := by
  have missing := List.find?_some first
  exact ⟨List.mem_of_find?_eq_some first, by simpa using missing⟩

/-! ### Values by recursion -/

variable [Arithmetic α] (env : Env α)

theorem eval_eq_readM (e : Expr α) :
    e.eval env = e.readM (Rpn.leafValue env) Rpn.applyOp := by
  rw [eval, Rpn.eval, reduceM_toRpn]
  cases e.readM (Rpn.leafValue env) Rpn.applyOp with
  | ok v => rfl
  | error f => rfl

@[simp] theorem eval_lit (v : α) : (lit v).eval env = .ok v := rfl

theorem eval_var_some {x : String} {v : α} (bound : env x = some v) :
    (var x).eval env = .ok v := by
  simp [eval_eq_readM, readM, token, Rpn.leafValue, bound]

theorem eval_var_none {x : String} (unbound : env x = none) :
    (var x).eval env = .error (.expression (.unresolved x)) := by
  simp [eval_eq_readM, readM, token, Rpn.leafValue, unbound]

theorem eval_node (o : Origin) (op : Op) (l r : Expr α) :
    (node o op l r).eval env = do
      let a ← l.eval env
      let b ← r.eval env
      return Arithmetic.apply op a b := by
  simp only [eval_eq_readM]
  rfl

variable {env}

theorem eval_node_ok {o : Origin} {op : Op} {l r : Expr α} {a b : α}
    (left : l.eval env = .ok a) (right : r.eval env = .ok b) :
    (node o op l r).eval env = .ok (Arithmetic.apply op a b) := by
  rw [eval_node, left, right]
  rfl

theorem eval_node_eq_ok {o : Origin} {op : Op} {l r : Expr α} {v : α}
    (value : (node o op l r).eval env = .ok v) :
    ∃ a b, l.eval env = .ok a ∧ r.eval env = .ok b ∧ v = Arithmetic.apply op a b := by
  rw [eval_node] at value
  cases left : l.eval env with
  | error f => rw [left] at value; cases value
  | ok a =>
    cases right : r.eval env with
    | error f => rw [left, right] at value; cases value
    | ok b =>
      rw [left, right] at value
      exact ⟨a, b, rfl, rfl, (Except.ok.inj value).symm⟩

/-! ### When there is a value -/

theorem eval_of_unbound? (env : Env α) (e : Expr α) :
    match e.unbound? env with
    | none => ∃ v, e.eval env = .ok v
    | some x => e.eval env = .error (.expression (.unresolved x)) := by
  induction e with
  | lit v => exact ⟨v, rfl⟩
  | var x =>
    cases bound : env x with
    | some v => simpa [unbound?, bound] using ⟨v, eval_var_some env bound⟩
    | none => simpa [unbound?, bound] using eval_var_none env bound
  | node o op l r ihl ihr =>
    have split : (node o op l r).unbound? env = (l.unbound? env).or (r.unbound? env) := by
      simp [unbound?]
    rw [split]
    cases left : l.unbound? env with
    | some x =>
      rw [left] at ihl
      simp [eval_node, ihl, bind, Except.bind]
    | none =>
      rw [left] at ihl
      obtain ⟨a, ihl⟩ := ihl
      cases right : r.unbound? env with
      | some x =>
        rw [right] at ihr
        simp [eval_node, ihl, ihr, bind, Except.bind]
      | none =>
        rw [right] at ihr
        obtain ⟨b, ihr⟩ := ihr
        exact ⟨_, eval_node_ok ihl ihr⟩

theorem eval_ok {e : Expr α} (bound : ∀ x ∈ e.names, (env x).isSome) :
    ∃ v, e.eval env = .ok v := by
  have value := e.eval_of_unbound? env
  rwa [unbound?_eq_none_iff.mpr bound] at value

theorem bound_of_eval_ok {e : Expr α} {v : α} (value : e.eval env = .ok v) :
    ∀ x ∈ e.names, (env x).isSome := by
  apply unbound?_eq_none_iff.mp
  cases first : e.unbound? env with
  | none => rfl
  | some x =>
    have failed := e.eval_of_unbound? env
    rw [first, value] at failed
    cases failed

theorem eval_unresolved {e : Expr α} {x : String} (present : x ∈ e.names)
    (unbound : env x = none) :
    ∃ y ∈ e.names, env y = none ∧ e.eval env = .error (.expression (.unresolved y)) := by
  have failed := e.eval_of_unbound? env
  cases first : e.unbound? env with
  | none =>
    have bound := unbound?_eq_none_iff.mp first x present
    simp [unbound] at bound
  | some y =>
    rw [first] at failed
    obtain ⟨found, missing⟩ := unbound?_eq_some first
    exact ⟨y, found, missing, failed⟩

theorem eval_extends {wide : Env α} (extends_ : wide.Extends env) {e : Expr α} {v : α}
    (value : e.eval env = .ok v) : e.eval wide = .ok v := by
  induction e generalizing v with
  | lit w => exact value
  | var x =>
    cases bound : env x with
    | none => rw [eval_var_none env bound] at value; cases value
    | some w =>
      rw [eval_var_some env bound] at value
      rw [eval_var_some wide (extends_ x w bound), value]
  | node o op l r ihl ihr =>
    obtain ⟨a, b, left, right, rfl⟩ := eval_node_eq_ok value
    exact eval_node_ok (ihl left) (ihr right)

end Expr

end Equate
