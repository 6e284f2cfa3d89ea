import Equate.Proofs.Solving.Resumption
import Equate.Proofs.Solving.Substitution

/-!
# Solving by inverses

The value of a solution needs no equation to be rewritten: it comes from the value of the other side
when the operators above the unknown are taken back one after another, from the root down, with the
values beside them (`retrace`). `solving_retraced`: every solution is this value, without any
difference in rounding, and the steps of the run are the operators that are taken back.
-/

namespace Equate

variable {α : Type}

/-- The operator that takes another one back. A power has none and stands for itself. -/
def Op.opposite : Op → Op
  | add => sub
  | sub => add
  | mul => div
  | div => mul
  | pow => pow

/-- An operator above an unknown, the slot of the operand that the unknown is in, and the other
operand. -/
structure Joint (α : Type) where
  op : Op
  slot : Slot
  beside : Expr α

namespace Joint

def reversed (j : Joint α) : Bool :=
  match j.op, j.slot with
  | .sub, .right | .div, .right => true
  | _, _ => false

def used (j : Joint α) : Op := if j.reversed then j.op else j.op.opposite

/-- The value of the operand with the unknown, if the other one is `s` and both together are `r`. -/
def takeBack [Arithmetic α] (j : Joint α) (s r : α) : α :=
  if j.reversed then Arithmetic.apply j.used s r else Arithmetic.apply j.used r s

end Joint

def Expr.joints (x : String) : Expr α → List (Joint α)
  | node _ op l r =>
    if x ∈ l.names then ⟨op, .left, r⟩ :: l.joints x
    else if x ∈ r.names then ⟨op, .right, l⟩ :: r.joints x
    else []
  | _ => []

theorem Expr.joints_of_pathTo? {x : String} {o : Origin} {op : Op} {l r : Expr α} {slot : Slot}
    {path : List Slot} (leads : (node o op l r).pathTo? x = some (slot :: path)) :
    (node o op l r).joints x = ⟨op, slot, slot.flip.pick l r⟩ :: (slot.pick l r).joints x := by
  obtain ⟨_, _, _, _, same, next, past⟩ := eq_node_of_pathTo? leads
  cases same
  have present := mem_names_of_pathTo? next
  cases slot with
  | left => simp only [joints, if_pos (show x ∈ l.names from present), Slot.pick, Slot.flip]
  | right =>
    simp only [joints, if_neg (past rfl), if_pos (show x ∈ r.names from present), Slot.pick,
      Slot.flip]

namespace Solving

variable [Arithmetic α] {env : Env α}

/-- The value of an unknown, from the value of all that its joints belong to. -/
def retrace (env : Env α) (joints : List (Joint α)) (r : α) : Except Failure α :=
  joints.foldlM (fun r j => return j.takeBack (← j.beside.eval env) r) r

/-- What is applied to the other side is what takes the operator back. -/
theorem takeBack_of_undo {op applied : Op} {slot place : Slot}
    (undone : op.undo slot = some (applied, place)) (beside : Expr α) :
    let j : Joint α := ⟨op, slot, beside⟩
    op ≠ .pow ∧ j.used = applied ∧
      ∀ s r, j.takeBack s r =
        place.pick (Arithmetic.apply applied r s) (Arithmetic.apply applied s r) := by
  cases op <;> cases slot <;> cases undone <;> exact ⟨nofun, rfl, fun _ _ => rfl⟩

theorem eval_wrap_eq_ok {applied : Op} {place : Slot} {other operand : Expr α} {v : α}
    (value : (wrap applied place other operand).eval env = .ok v) :
    ∃ r s, other.eval env = .ok r ∧ operand.eval env = .ok s ∧
      v = place.pick (Arithmetic.apply applied r s) (Arithmetic.apply applied s r) := by
  cases place with
  | left => exact Expr.eval_node_eq_ok value
  | right =>
    obtain ⟨s, r, left, right, same⟩ := Expr.eval_node_eq_ok value
    exact ⟨r, s, right, left, same⟩

/-- Whether a value and the steps to it come from taking the joints of `x` back, from the value of
the other side. -/
structure Retraced {σ : Type} (env : Env α) (x : String) (unknown other : Expr α) (v : α)
    (steps : List (SolveStep σ)) : Prop where
  invertible : ∀ j ∈ unknown.joints x, j.op ≠ .pow
  value : ∃ r, other.eval env = .ok r ∧ retrace env (unknown.joints x) r = .ok v
  steps : steps.map (fun s => (s.undone, s.slot, s.applied)) =
    (unknown.joints x).map fun j => (j.op, j.slot, j.used)

theorem Course.retraced {x : String} (unbound : env x = none) {side : Side} {path : List Slot}
    {unknown other : Expr α} {run : Solving α} (found : unknown.pathTo? x = some path)
    (course : Course env x side path (unknown.simplify env) (other.simplify env) run) {v : α}
    (solved : run.outcome = .ok v) : Retraced env x unknown other v run.steps := by
  induction path generalizing unknown other run with
  | nil =>
    obtain rfl := Expr.eq_var_of_pathTo? found
    cases course with
    | alone =>
      have value : other.eval env = .ok v :=
        (Expr.eval_simplify (Env.extends_self env) other).symm.trans solved
      exact ⟨nofun, ⟨v, value, rfl⟩, rfl⟩
  | cons slot path ih =>
    obtain ⟨o, op, l, r, rfl, next, -⟩ := Expr.eq_node_of_pathTo? found
    have joints := Expr.joints_of_pathTo? found
    rw [Expr.simplify_node_of_unbound (Expr.mem_names_of_pathTo? found) unbound] at course
    cases course with
    | blocked => cases solved
    | step leads undone rest =>
      -- what is left has the other side, with the operand moved to it, for its other side
      rw [pick_simplify, pick_simplify, moved_simplify] at rest
      obtain ⟨invertible, ⟨r₁, value, retraced⟩, steps⟩ := ih next rest solved
      obtain ⟨r₀, s, first, beside, rfl⟩ := eval_wrap_eq_ok value
      obtain ⟨lasting, used, taken⟩ := takeBack_of_undo undone (slot.flip.pick l r)
      constructor
      · rw [joints, List.forall_mem_cons]
        exact ⟨lasting, invertible⟩
      · refine ⟨r₀, first, ?_⟩
        rw [joints, retrace, List.foldlM_cons, beside, ← retraced, ← taken]
        rfl
      · rw [joints, List.map_cons, List.map_cons, steps, used]

end Solving

/-- A solution is the value that comes from taking back the operators above the unknown, and its
steps tell of these. -/
theorem Equation.solving_retraced [Arithmetic α] {env : Env α} {x : String} {lhs rhs : Expr α}
    {v : α} (solved : ((between lhs rhs).solving env x).outcome = .ok v) :
    ∃ side unknown other, Sides.mk lhs rhs = Solving.arrange side unknown other ∧
      unknown.names.count x = 1 ∧ x ∉ other.names ∧
      Solving.Retraced env x unknown other v ((between lhs rhs).solving env x).steps := by
  obtain ⟨unbound, once, -⟩ := accepted_of_solved solved
  obtain ⟨side, path, unknown, other, arranged, found, onceThere, absent⟩ := exists_arrange once
  have run : (between lhs rhs).solving env x =
      Solving.isolate env x (Solving.arrange side unknown other) := by
    rw [← arranged]
    exact (solve_of_accepted _ (checkTarget_between unbound once)).1
  rw [run] at solved ⊢
  have course := Solving.course_of_isolate unbound side found absent
  exact ⟨side, unknown, other, arranged, onceThere, absent, course.retraced unbound found solved⟩

end Equate
