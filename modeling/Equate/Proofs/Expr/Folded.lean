import Equate.Proofs.Expr.Folding

/-!
# Expressions folded in part

`Folded` relates an expression to what is left of it when some operations, anywhere in it, have been
replaced by their values. `simplify` does that (`simplify_folded`), and goes as far as it can go:
from what it leaves nothing more can be folded (`Folded.eq_of_simplify`), however much was folded
before (`Folded.simplify`).
-/

namespace Equate

theorem Env.extends_self {α : Type} (env : Env α) : env.Extends env := fun _ _ bound => bound

theorem Env.Extends.eq_none {α : Type} {wide env : Env α} (extended : wide.Extends env)
    {x : String} (unbound : wide x = none) : env x = none := by
  cases bound : env x with
  | none => rfl
  | some v =>
    rw [extended x v bound] at unbound
    cases unbound

namespace Expr

variable {α : Type} [Arithmetic α]

inductive Folded (env : Env α) : Expr α → Expr α → Prop where
  | same (e : Expr α) : Folded env e e
  | operands {l l' r r' : Expr α} (o : Origin) (op : Op) (left : Folded env l l')
      (right : Folded env r r') : Folded env (node o op l r) (node o op l' r')
  | value {o : Origin} {op : Op} {l r : Expr α} {v : α}
      (value : (node o op l r).eval env = .ok v) : Folded env (node o op l r) (lit v)

variable {env : Env α}

theorem Folded.eval {wide : Env α} (extended : wide.Extends env) {e e' : Expr α}
    (folded : e.Folded env e') : e'.eval wide = e.eval wide := by
  induction folded with
  | same e => rfl
  | operands o op left right ihl ihr => rw [eval_node, eval_node, ihl, ihr]
  | value value => rw [eval_lit, eval_extends extended value]

theorem Folded.trans {e e' e'' : Expr α} (first : e.Folded env e') (second : e'.Folded env e'') :
    e.Folded env e'' := by
  induction first generalizing e'' with
  | same e => exact second
  | operands o op left right ihl ihr =>
    cases second with
    | same => exact .operands o op left right
    | operands _ _ left' right' => exact .operands o op (ihl left') (ihr right')
    | value value =>
      have before := (Folded.operands o op left right).eval (Env.extends_self env)
      exact .value (before.symm.trans value)
  | value value =>
    cases second with
    | same => exact .value value

theorem Folded.mono {wide : Env α} (extended : wide.Extends env) {e e' : Expr α}
    (folded : e.Folded env e') : e.Folded wide e' := by
  induction folded with
  | same e => exact .same e
  | operands o op left right ihl ihr => exact .operands o op ihl ihr
  | value value => exact .value (eval_extends extended value)

theorem foldRoot_folded (env : Env α) (e : Expr α) : e.Folded env (foldRoot env e) := by
  rcases foldRoot_cases env e with kept | ⟨v, value, folded⟩
  · rw [kept]
    exact .same e
  · rw [folded]
    cases e with
    | lit w => rw [← Except.ok.inj ((eval_lit env w).symm.trans value)]; exact .same _
    | var x => cases folded
    | node o op l r => exact .value value

theorem folded_of_foldAt? {path : List Slot} {e e' : Expr α}
    (folded : e.foldAt? env path = some e') : e.Folded env e' := by
  induction path generalizing e e' with
  | nil =>
    obtain ⟨o, op, l, r, v, rfl, -, -, value, rfl⟩ := foldRoot?_eq_some_iff.mp folded
    exact .value value
  | cons slot path ih =>
    cases e with
    | lit v => cases slot <;> cases folded
    | var x => cases slot <;> cases folded
    | node o op l r =>
      cases slot with
      | left =>
        obtain ⟨l', inner, rfl⟩ := Option.map_eq_some_iff.mp folded
        exact .operands o op (ih inner) (.same r)
      | right =>
        obtain ⟨r', inner, rfl⟩ := Option.map_eq_some_iff.mp folded
        exact .operands o op (.same l) (ih inner)

/-! ### As far as it goes -/

theorem foldRoot_of_leaves {o : Origin} {op : Op} {l r : Expr α} {v : α} (left : l.isLeaf = true)
    (right : r.isLeaf = true) (value : (node o op l r).eval env = .ok v) :
    foldRoot env (node o op l r) = lit v := by
  have found : (node o op l r).foldRoot? env = some (lit v) :=
    foldRoot?_eq_some_iff.mpr ⟨o, op, l, r, v, rfl, left, right, value, rfl⟩
  rw [foldRoot, found, Option.getD_some]

theorem foldRoot_of_inner {o : Origin} {op : Op} {l r : Expr α}
    (inner : ¬ (l.isLeaf = true ∧ r.isLeaf = true)) :
    foldRoot env (node o op l r) = node o op l r := by
  cases found : (node o op l r).foldRoot? env with
  | none => rw [foldRoot, found, Option.getD_none]
  | some e' =>
    obtain ⟨_, _, _, _, _, ⟨⟩, left, right, -⟩ := foldRoot?_eq_some_iff.mp found
    exact absurd ⟨left, right⟩ inner

theorem eval_node_simplify (o : Origin) (op : Op) (l r : Expr α) :
    (node o op (l.simplify env) (r.simplify env)).eval env = (node o op l r).eval env := by
  rw [eval_node, eval_node, eval_simplify (Env.extends_self env),
    eval_simplify (Env.extends_self env)]

theorem isLeaf_simplify {e : Expr α} {v : α} (value : e.eval env = .ok v) :
    (e.simplify env).isLeaf = true := by
  induction e generalizing v with
  | lit w => rfl
  | var x => rfl
  | node o op l r ihl ihr =>
    obtain ⟨a, b, left, right, -⟩ := eval_node_eq_ok value
    rw [simplify_node, foldRoot_of_leaves (ihl left) (ihr right)
      ((eval_node_simplify o op l r).trans value)]
    rfl

theorem simplify_of_isLeaf {e : Expr α} (leaf : e.isLeaf = true) : e.simplify env = e := by
  cases e with
  | node => cases leaf
  | _ => rfl

theorem simplify_node_of_eval_ok {o : Origin} {op : Op} {l r : Expr α} {v : α}
    (value : (node o op l r).eval env = .ok v) : (node o op l r).simplify env = lit v := by
  obtain ⟨a, b, left, right, -⟩ := eval_node_eq_ok value
  rw [simplify_node]
  exact foldRoot_of_leaves (isLeaf_simplify left) (isLeaf_simplify right)
    ((eval_node_simplify o op l r).trans value)

theorem simplify_folded (env : Env α) (e : Expr α) : e.Folded env (e.simplify env) := by
  induction e with
  | lit v => exact .same _
  | var x => exact .same _
  | node o op l r ihl ihr =>
    have inside : (node o op l r).Folded env (node o op (l.simplify env) (r.simplify env)) :=
      .operands o op ihl ihr
    rw [simplify_node]
    exact inside.trans (foldRoot_folded env _)

theorem Folded.simplify {e e' : Expr α} (folded : e.Folded env e') :
    e'.simplify env = e.simplify env := by
  induction folded with
  | same e => rfl
  | operands o op left right ihl ihr => rw [simplify_node, simplify_node, ihl, ihr]
  | value value => rw [simplify_node_of_eval_ok value]; rfl

theorem Folded.eq_of_simplify {e e' : Expr α} (folded : (e.simplify env).Folded env e') :
    e' = e.simplify env := by
  induction e generalizing e' with
  | lit v => cases folded; rfl
  | var x => cases folded; rfl
  | node o op l r ihl ihr =>
    rw [simplify_node] at folded ⊢
    rcases foldRoot_cases env (node o op (l.simplify env) (r.simplify env)) with kept | literal
    · rw [kept] at folded ⊢
      cases folded with
      | same => rfl
      | operands _ _ left right => rw [ihl left, ihr right]
      | value value =>
        -- a value would have been put in the place of the operation
        have whole := simplify_node_of_eval_ok ((eval_node_simplify o op l r).symm.trans value)
        rw [simplify_node, kept] at whole
        cases whole
    · obtain ⟨v, -, literal⟩ := literal
      rw [literal] at folded ⊢
      cases folded
      rfl

/-! ### When nothing can be folded -/

omit [Arithmetic α] in
theorem size_pos (e : Expr α) : 0 < e.size := by
  cases e <;> simp [size]

theorem Folded.eq_or_size_lt {e e' : Expr α} (folded : e.Folded env e') :
    e' = e ∨ e'.size < e.size := by
  induction folded with
  | same e => exact Or.inl rfl
  | operands o op left right ihl ihr =>
    simp only [node.injEq, true_and, size]
    rcases ihl with rfl | smaller <;> rcases ihr with rfl | smaller' <;> first
      | exact Or.inl ⟨rfl, rfl⟩
      | exact Or.inr (by omega)
  | @value o op l r v value =>
    have left := l.size_pos
    exact Or.inr (by simp only [size]; omega)

theorem Folded.size_le {e e' : Expr α} (folded : e.Folded env e') : e'.size ≤ e.size := by
  rcases folded.eq_or_size_lt with rfl | smaller
  · exact Nat.le_refl _
  · exact Nat.le_of_lt smaller

theorem size_foldAt? {path : List Slot} {e e' : Expr α} (folded : e.foldAt? env path = some e') :
    e'.size < e.size := by
  induction path generalizing e e' with
  | nil =>
    obtain ⟨o, op, l, r, v, rfl, -, -, -, rfl⟩ := foldRoot?_eq_some_iff.mp folded
    have left := l.size_pos
    simp only [size]
    omega
  | cons slot path ih =>
    cases e with
    | lit v => cases slot <;> cases folded
    | var x => cases slot <;> cases folded
    | node o op l r =>
      cases slot with
      | left =>
        obtain ⟨l', inner, rfl⟩ := Option.map_eq_some_iff.mp folded
        have smaller := ih inner
        simp only [size]
        omega
      | right =>
        obtain ⟨r', inner, rfl⟩ := Option.map_eq_some_iff.mp folded
        have smaller := ih inner
        simp only [size]
        omega

theorem simplify_of_stuck {e : Expr α} (stuck : ∀ path, e.foldAt? env path = none) :
    e.simplify env = e := by
  induction e with
  | lit v => rfl
  | var x => rfl
  | node o op l r ihl ihr =>
    have left : l.simplify env = l :=
      ihl fun path => Option.map_eq_none_iff.mp (stuck (.left :: path))
    have right : r.simplify env = r :=
      ihr fun path => Option.map_eq_none_iff.mp (stuck (.right :: path))
    have root : (node o op l r).foldRoot? env = none := stuck []
    rw [simplify_node, left, right, foldRoot, root, Option.getD_none]

/-- No node can be folded exactly if folding all of them changes nothing. -/
theorem stuck_iff {e : Expr α} : (∀ path, e.foldAt? env path = none) ↔ e.simplify env = e := by
  refine ⟨simplify_of_stuck, fun kept path => ?_⟩
  cases folded : e.foldAt? env path with
  | none => rfl
  | some e' =>
    have partly := folded_of_foldAt? folded
    rw [← kept] at partly
    have same : e' = e := partly.eq_of_simplify.trans kept
    have smaller := size_foldAt? folded
    rw [same] at smaller
    exact absurd smaller (Nat.lt_irrefl _)

theorem simplify_operands {o : Origin} {op : Op} {l r : Expr α}
    (kept : (node o op l r).simplify env = node o op l r) :
    l.simplify env = l ∧ r.simplify env = r := by
  have stuck := stuck_iff.mpr kept
  constructor
  · exact simplify_of_stuck fun path => Option.map_eq_none_iff.mp (stuck (.left :: path))
  · exact simplify_of_stuck fun path => Option.map_eq_none_iff.mp (stuck (.right :: path))

end Expr

end Equate
