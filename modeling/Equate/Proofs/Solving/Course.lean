import Equate.Equation.Solve
import Equate.Proofs.Expr.Folding

/-!
# The course of a run

`Course` describes how operators are taken off one side until the unknown stands alone or a power
is in the way. It knows no limit of steps and no faults but that one. `along_course` and
`isolate_course` show that every run takes such a course, so that what holds of runs is shown by
induction on it.
-/

namespace Equate

variable {α : Type}

/-! ### Slots -/

namespace Slot

variable {β : Type}

def flip : Slot → Slot
  | left => right
  | right => left

def pick (s : Slot) (l r : β) : β :=
  match s with
  | left => l
  | right => r

end Slot

namespace Expr

/-! ### Steps on the way to a variable -/

theorem eq_var_of_pathTo? {x : String} {e : Expr α} (found : e.pathTo? x = some []) :
    e = var x := by
  cases e with
  | lit v => cases found
  | var y =>
    by_cases same : y = x
    · rw [same]
    · simp [pathTo?, same] at found
  | node o op l r =>
    cases left : l.pathTo? x with
    | some path => simp [pathTo?, left] at found
    | none => simp [pathTo?, left] at found

theorem eq_node_of_pathTo? {x : String} {e : Expr α} {slot : Slot} {path : List Slot}
    (found : e.pathTo? x = some (slot :: path)) :
    ∃ o op l r, e = node o op l r ∧ (slot.pick l r).pathTo? x = some path ∧
      (slot = .right → x ∉ l.names) := by
  cases e with
  | lit v => cases found
  | var y =>
    by_cases same : y = x
    · simp [pathTo?, same] at found
    · simp [pathTo?, same] at found
  | node o op l r =>
    refine ⟨o, op, l, r, rfl, ?_⟩
    cases left : l.pathTo? x with
    | some rest =>
      simp only [pathTo?, left, Option.some.injEq, List.cons.injEq] at found
      obtain ⟨rfl, rfl⟩ := found
      exact ⟨left, fun past => by cases past⟩
    | none =>
      simp only [pathTo?, left, Option.map_eq_some_iff, List.cons.injEq] at found
      obtain ⟨rest, right, rfl, rfl⟩ := found
      exact ⟨right, fun _ => pathTo?_eq_none_iff.mp left⟩

theorem mem_names_of_pathTo? {x : String} {e : Expr α} {path : List Slot}
    (found : e.pathTo? x = some path) : x ∈ e.names := by
  by_cases present : x ∈ e.names
  · exact present
  · rw [pathTo?_eq_none_iff.mpr present] at found
    cases found

theorem length_lt_depth {x : String} {e : Expr α} {path : List Slot}
    (found : e.pathTo? x = some path) : path.length < e.depth := by
  induction path generalizing e with
  | nil => cases e <;> exact Nat.succ_pos _
  | cons slot path ih =>
    obtain ⟨o, op, l, r, rfl, next, -⟩ := eq_node_of_pathTo? found
    have shorter := ih next
    simp only [List.length_cons, depth]
    cases slot <;> simp only [Slot.pick] at shorter <;> omega

end Expr

def SolveStep.map {σ τ : Type} (f : σ → τ) (step : SolveStep σ) : SolveStep τ :=
  ⟨step.undone, step.applied, step.slot, f step.before, f step.after⟩

namespace Solving

/-- The sides at the start of every step, and those at the end. -/
def states (run : Solving α) : List (Sides α) := run.steps.map (·.before) ++ [run.sides]

/-! ### Courses -/

variable [Arithmetic α]

def moved (env : Env α) (applied : Op) (place : Slot) (other operand : Expr α) : Expr α :=
  (wrap applied place other operand).foldRoot env

/-- Runs that bring the variable `x` out of the expression `unknown`, in which it stands at the end
of the path, and let `other` gain what is undone. -/
inductive Course (env : Env α) (x : String) (side : Side) :
    List Slot → (unknown other : Expr α) → Solving α → Prop where
  | alone (other : Expr α) :
      Course env x side [] (.var x) other ⟨[], arrange side (.var x) other, other.eval env⟩
  | blocked {o : Origin} {op : Op} {l r other : Expr α} {slot : Slot} {path : List Slot}
      (leads : (Expr.node o op l r).pathTo? x = some (slot :: path))
      (lasting : op.undo slot = none) :
      Course env x side (slot :: path) (.node o op l r) other
        (stop (.noInverse x op) (arrange side (.node o op l r) other))
  | step {o : Origin} {op applied : Op} {l r other : Expr α} {slot place : Slot}
      {path : List Slot} {run : Solving α}
      (leads : (Expr.node o op l r).pathTo? x = some (slot :: path))
      (undone : op.undo slot = some (applied, place))
      (rest : Course env x side path (slot.pick l r)
        (moved env applied place other (slot.flip.pick l r)) run) :
      Course env x side (slot :: path) (.node o op l r) other
        { run with
          steps := ⟨op, applied, slot, arrange side (.node o op l r) other,
            arrange side (slot.pick l r)
              (moved env applied place other (slot.flip.pick l r))⟩ :: run.steps }

section Step

variable {env : Env α} {side : Side} {limit done : Nat} {o : Origin} {op : Op} {l r other : Expr α}
  {slot : Slot} {path : List Slot} (early : ¬ limit ≤ done)
include early

theorem along_blocked (x : String) (lasting : op.undo slot = none) :
    along env x side limit (slot :: path) done (.node o op l r) other =
      stop (.noInverse x op) (arrange side (.node o op l r) other) := by
  simp only [along, Expr.isVar, Bool.false_eq_true, if_false, if_neg early, lasting]

theorem along_step (x : String) {applied : Op} {place : Slot}
    (undone : op.undo slot = some (applied, place)) :
    along env x side limit (slot :: path) done (.node o op l r) other =
      let new := moved env applied place other (slot.flip.pick l r)
      let rest := along env x side limit path (done + 1) (slot.pick l r) new
      { rest with
        steps := ⟨op, applied, slot, arrange side (.node o op l r) other,
          arrange side (slot.pick l r) new⟩ :: rest.steps } := by
  simp only [along, Expr.isVar, Bool.false_eq_true, if_false, if_neg early, undone]
  cases slot <;> rfl

end Step

/-- With room for as many steps as the path is long, the guards never apply. -/
theorem along_course {env : Env α} {x : String} {side : Side} {limit done : Nat}
    {path : List Slot} {unknown other : Expr α} (found : unknown.pathTo? x = some path)
    (room : done + path.length ≤ limit) :
    Course env x side path unknown other (along env x side limit path done unknown other) := by
  induction path generalizing done unknown other with
  | nil =>
    obtain rfl := Expr.eq_var_of_pathTo? found
    simp only [along, Expr.isVar, beq_self_eq_true, if_true]
    exact .alone other
  | cons slot path ih =>
    obtain ⟨o, op, l, r, rfl, next, -⟩ := Expr.eq_node_of_pathTo? found
    simp only [List.length_cons] at room
    have early : ¬ limit ≤ done := by omega
    have later : done + 1 + path.length ≤ limit := by omega
    cases undone : op.undo slot with
    | none =>
      rw [along_blocked early x undone]
      exact .blocked found undone
    | some result =>
      rw [along_step early x undone]
      exact .step found undone (ih next later)

/-- What a step leaves is what the next one starts with. -/
theorem Course.states_eq {env : Env α} {x : String} {side : Side} {path : List Slot}
    {unknown other : Expr α} {run : Solving α}
    (course : Course env x side path unknown other run) :
    run.states = arrange side unknown other :: run.steps.map (·.after) := by
  induction course with
  | alone other => rfl
  | blocked leads lasting => rfl
  | step leads undone rest ih => exact congrArg (List.cons _) ih

/-- A run on two sides takes a course on that of the variable, after both have been simplified. If
neither has it, that is reported. -/
theorem isolate_course (env : Env α) (x : String) (lhs rhs : Expr α) :
    (x ∉ (lhs.simplify env).names ∧ x ∉ (rhs.simplify env).names ∧
      isolate env x ⟨lhs, rhs⟩ = stop (.notFound x) ⟨lhs.simplify env, rhs.simplify env⟩) ∨
    ∃ side path unknown other, unknown.pathTo? x = some path ∧
      arrange side unknown other = ⟨lhs.simplify env, rhs.simplify env⟩ ∧
      Course env x side path unknown other (isolate env x ⟨lhs, rhs⟩) := by
  unfold isolate
  generalize lhs.simplify env = l
  generalize rhs.simplify env = r
  have whole {side : Side} {path : List Slot} {unknown other : Expr α}
      (found : unknown.pathTo? x = some path) :
      Course env x side path unknown other
        (along env x side unknown.depth path 0 unknown other) := by
    have shorter := Expr.length_lt_depth found
    exact along_course found (by omega)
  match left : l.pathTo? x, right : r.pathTo? x with
  | none, none =>
    have absent := Expr.pathTo?_eq_none_iff.mp left
    have absent' := Expr.pathTo?_eq_none_iff.mp right
    exact Or.inl ⟨absent, absent', by simp only [left, right]⟩
  | none, some [] =>
    obtain rfl := Expr.eq_var_of_pathTo? right
    refine Or.inr ⟨.right, [], _, l, right, rfl, ?_⟩
    simpa only [left, right, arrange] using Course.alone l
  | none, some (slot :: path) =>
    refine Or.inr ⟨.right, _, r, l, right, rfl, ?_⟩
    simpa only [left, right] using whole right
  | some [], none =>
    obtain rfl := Expr.eq_var_of_pathTo? left
    refine Or.inr ⟨.left, [], _, r, left, rfl, ?_⟩
    simpa only [left, right, arrange] using Course.alone r
  | some [], some [] =>
    obtain rfl := Expr.eq_var_of_pathTo? left
    refine Or.inr ⟨.left, [], _, r, left, rfl, ?_⟩
    simpa only [left, right, arrange] using Course.alone r
  | some [], some (slot :: path) =>
    refine Or.inr ⟨.right, _, r, l, right, rfl, ?_⟩
    simpa only [left, right] using whole right
  | some (slot :: path), _ =>
    refine Or.inr ⟨.left, _, l, r, left, rfl, ?_⟩
    simpa only [left] using whole left

end Solving

end Equate
