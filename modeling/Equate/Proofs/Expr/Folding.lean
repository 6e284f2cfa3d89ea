import Equate.Expr.Fold
import Equate.Proofs.Expr.Value

/-!
# What folding keeps

Folding replaces operations by their values and nothing else. `eval_simplify`: the value stays the
same, also when further variables get values later. `unboundNames_simplify`: the variables without
a value stay where they are, and with them (`pathTo?_simplify`, `operatorsAbove_simplify`) the way
from the root to each of them.
-/

namespace Equate.Expr

variable {α : Type}

/-! ### The way to a variable -/

/-- The variables without a value from left to right, as often as they occur. -/
def unboundNames (env : Env α) (e : Expr α) : List String :=
  e.names.filter fun x => (env x).isNone

@[simp] theorem unboundNames_node (env : Env α) (o : Origin) (op : Op) (l r : Expr α) :
    (node o op l r).unboundNames env = l.unboundNames env ++ r.unboundNames env := by
  simp [unboundNames]

theorem mem_unboundNames {env : Env α} {e : Expr α} {x : String} (unbound : env x = none) :
    x ∈ e.unboundNames env ↔ x ∈ e.names := by
  simp [unboundNames, unbound]

theorem count_unboundNames {env : Env α} {e : Expr α} {x : String} (unbound : env x = none) :
    (e.unboundNames env).count x = e.names.count x :=
  List.count_filter (by simp [unbound])

/-- The operators on the way from the root to the leftmost occurrence of a variable. -/
def operatorsAbove (x : String) : Expr α → List Op
  | node _ op l r =>
    if x ∈ l.names then op :: l.operatorsAbove x
    else if x ∈ r.names then op :: r.operatorsAbove x
    else []
  | _ => []

theorem operatorsAbove_of_absent {x : String} {e : Expr α} (absent : x ∉ e.names) :
    e.operatorsAbove x = [] := by
  cases e with
  | lit v => rfl
  | var y => rfl
  | node o op l r =>
    simp only [names_node, List.mem_append, not_or] at absent
    simp [operatorsAbove, absent]

theorem pathTo?_eq_none_iff {x : String} {e : Expr α} : e.pathTo? x = none ↔ x ∉ e.names := by
  induction e with
  | lit v => simp [pathTo?]
  | var y =>
    by_cases same : y = x
    · simp [pathTo?, same]
    · simp [pathTo?, same, Ne.symm same]
  | node o op l r ihl ihr =>
    cases left : l.pathTo? x with
    | some path => simp [pathTo?, left, ← ihl]
    | none => simp [pathTo?, left, ← ihl, ← ihr]

/-! ### One fold -/

variable [Arithmetic α] {env : Env α}

theorem foldRoot?_eq_some_iff {e e' : Expr α} :
    e.foldRoot? env = some e' ↔
      ∃ o op l r v, e = node o op l r ∧ l.isLeaf = true ∧ r.isLeaf = true ∧
        e.eval env = .ok v ∧ e' = lit v := by
  constructor
  · intro folded
    cases e with
    | lit v => cases folded
    | var x => cases folded
    | node o op l r =>
      simp only [foldRoot?] at folded
      split at folded
      · rename_i leaves
        rw [Bool.and_eq_true] at leaves
        split at folded
        · rename_i v value
          exact ⟨o, op, l, r, v, rfl, leaves.1, leaves.2, value, (Option.some.inj folded).symm⟩
        · cases folded
      · cases folded
  · rintro ⟨o, op, l, r, v, rfl, left, right, value, rfl⟩
    simp [foldRoot?, left, right, value]

theorem foldRoot_cases (env : Env α) (e : Expr α) :
    foldRoot env e = e ∨ ∃ v, e.eval env = .ok v ∧ foldRoot env e = lit v := by
  cases folded : e.foldRoot? env with
  | none => exact Or.inl (by simp [foldRoot, folded])
  | some e' =>
    obtain ⟨_, _, _, _, v, -, -, -, value, rfl⟩ := foldRoot?_eq_some_iff.mp folded
    exact Or.inr ⟨v, value, by simp [foldRoot, folded]⟩

theorem foldRoot_of_unbound {e : Expr α} {x : String} (present : x ∈ e.names)
    (unbound : env x = none) : foldRoot env e = e := by
  rcases foldRoot_cases env e with same | ⟨v, value, _⟩
  · exact same
  · have bound := bound_of_eval_ok value x present
    simp [unbound] at bound

theorem eval_foldRoot {wide : Env α} (extended : wide.Extends env) (e : Expr α) :
    (foldRoot env e).eval wide = e.eval wide := by
  rcases foldRoot_cases env e with same | ⟨v, value, folded⟩
  · rw [same]
  · rw [folded, eval_extends extended value, eval_lit]

theorem eval_foldAt? {wide : Env α} (extended : wide.Extends env) {path : List Slot} {e e' : Expr α}
    (folded : e.foldAt? env path = some e') : e'.eval wide = e.eval wide := by
  induction path generalizing e e' with
  | nil =>
    have same : foldRoot env e = e' := by
      rw [foldRoot, show e.foldRoot? env = some e' from folded, Option.getD_some]
    rw [← same, eval_foldRoot extended]
  | cons slot path ih =>
    cases e with
    | lit v => cases slot <;> cases folded
    | var x => cases slot <;> cases folded
    | node o op l r =>
      cases slot with
      | left =>
        obtain ⟨l', inner, rfl⟩ := Option.map_eq_some_iff.mp folded
        rw [eval_node, eval_node, ih inner]
      | right =>
        obtain ⟨r', inner, rfl⟩ := Option.map_eq_some_iff.mp folded
        rw [eval_node, eval_node, ih inner]

theorem unboundNames_foldRoot (env : Env α) (e : Expr α) :
    (foldRoot env e).unboundNames env = e.unboundNames env := by
  rcases foldRoot_cases env e with same | ⟨v, value, folded⟩
  · rw [same]
  · have bound := bound_of_eval_ok value
    have none_left : e.unboundNames env = [] := by
      simpa [unboundNames, List.filter_eq_nil_iff, Option.isSome_iff_ne_none] using bound
    rw [folded, none_left]
    rfl

/-! ### All folds -/

theorem simplify_node (o : Origin) (op : Op) (l r : Expr α) :
    (node o op l r).simplify env = foldRoot env (node o op (l.simplify env) (r.simplify env)) := rfl

theorem eval_simplify {wide : Env α} (extended : wide.Extends env) (e : Expr α) :
    (e.simplify env).eval wide = e.eval wide := by
  induction e with
  | lit v => rfl
  | var x => rfl
  | node o op l r ihl ihr =>
    rw [simplify_node, eval_foldRoot extended, eval_node, eval_node, ihl, ihr]

theorem unboundNames_simplify (env : Env α) (e : Expr α) :
    (e.simplify env).unboundNames env = e.unboundNames env := by
  induction e with
  | lit v => rfl
  | var x => rfl
  | node o op l r ihl ihr =>
    rw [simplify_node, unboundNames_foldRoot, unboundNames_node, unboundNames_node, ihl, ihr]

theorem mem_names_simplify {e : Expr α} {x : String} (unbound : env x = none) :
    x ∈ (e.simplify env).names ↔ x ∈ e.names := by
  rw [← mem_unboundNames unbound, unboundNames_simplify, mem_unboundNames unbound]

theorem count_names_simplify {e : Expr α} {x : String} (unbound : env x = none) :
    (e.simplify env).names.count x = e.names.count x := by
  rw [← count_unboundNames unbound, unboundNames_simplify, count_unboundNames unbound]

theorem simplify_node_of_unbound {o : Origin} {op : Op} {l r : Expr α} {x : String}
    (present : x ∈ (node o op l r).names) (unbound : env x = none) :
    (node o op l r).simplify env = node o op (l.simplify env) (r.simplify env) := by
  rw [simplify_node]
  apply foldRoot_of_unbound (x := x) _ unbound
  simpa [mem_names_simplify unbound] using present

theorem pathTo?_simplify {x : String} (unbound : env x = none) (e : Expr α) :
    (e.simplify env).pathTo? x = e.pathTo? x := by
  induction e with
  | lit v => rfl
  | var y => rfl
  | node o op l r ihl ihr =>
    by_cases present : x ∈ (node o op l r).names
    · rw [simplify_node_of_unbound present unbound]
      simp only [pathTo?, ihl, ihr]
    · have absent := present
      rw [← mem_names_simplify unbound] at absent
      rw [pathTo?_eq_none_iff.mpr present, pathTo?_eq_none_iff.mpr absent]

theorem operatorsAbove_simplify {x : String} (unbound : env x = none) (e : Expr α) :
    (e.simplify env).operatorsAbove x = e.operatorsAbove x := by
  induction e with
  | lit v => rfl
  | var y => rfl
  | node o op l r ihl ihr =>
    by_cases present : x ∈ (node o op l r).names
    · rw [simplify_node_of_unbound present unbound]
      simp only [operatorsAbove, mem_names_simplify unbound, ihl, ihr]
    · have absent := present
      rw [← mem_names_simplify unbound] at absent
      rw [operatorsAbove_of_absent present, operatorsAbove_of_absent absent]

end Equate.Expr
