import Equate.Proofs.Solving.Resumption

/-!
# The guards of a run

A run looks for the way to the unknown once, before it starts, and allows itself as many steps as
that side has levels. `solving_unhindered`: it needs neither the one again nor more of the other.
What is left of the way leads to the unknown from every root that the side has in turn, a step is
taken for every operator on it down to the first power, and no fault is reported but that power and
a missing value.
-/

namespace Equate

variable {α : Type}

def ExprError.isGuard : ExprError → Bool
  | notIsolated .. | noParent _ | notFound _ => true
  | _ => false

namespace Solving

variable [Arithmetic α] {env : Env α} {x : String} {side : Side} {path : List Slot}
  {unknown other : Expr α} {run : Solving α}

/-! ### Courses -/

/-- A run does not depend on the limit, nor on how the way goes on behind the unknown. -/
theorem Course.unforced (course : Course env x side path unknown other run) {limit done : Nat}
    (room : done + path.length ≤ limit) (more : List Slot) :
    along env x side limit (path ++ more) done unknown other = run := by
  induction course generalizing done with
  | alone other => cases more <;> simp [along, Expr.isVar]
  | blocked leads lasting =>
    simp only [List.length_cons] at room
    rw [List.cons_append, along_blocked (by omega) x lasting]
  | @step o op applied l r other slot place path run leads undone rest ih =>
    simp only [List.length_cons] at room
    have early : ¬ limit ≤ done := by omega
    have later : done + 1 + path.length ≤ limit := by omega
    simp only [List.cons_append, along_step early x undone, ih later]

theorem Course.pathTo? (course : Course env x side path unknown other run) :
    unknown.pathTo? x = some path := by
  cases course with
  | alone other => simp [Expr.pathTo?]
  | blocked leads lasting => exact leads
  | step leads undone rest => exact leads

/-- In every state the rest of the way leads to the unknown. -/
theorem Course.leads (course : Course env x side path unknown other run) {i : Nat} {s : Sides α}
    (here : run.states[i]? = some s) :
    ∃ u o, s = arrange side u o ∧ u.pathTo? x = some (path.drop i) := by
  induction i generalizing path unknown other run with
  | zero =>
    rw [course.states_eq] at here
    obtain rfl := Option.some.inj here
    exact ⟨unknown, other, rfl, course.pathTo?⟩
  | succ i ih =>
    cases course with
    | alone other => cases here
    | blocked leads lasting => cases here
    | step leads undone rest => exact ih rest here

/-- One step is taken for every operator above the unknown, down to the first power. -/
theorem Course.undone (course : Course env x side path unknown other run) :
    run.steps.map (·.undone) = (unknown.operatorsAbove x).takeWhile (· != .pow) := by
  induction course with
  | alone other => rfl
  | blocked leads lasting =>
    rw [Expr.operatorsAbove_of_pathTo? leads, Op.undo_eq_none_iff.mp lasting]
    rfl
  | @step o op applied l r other slot place path run leads undone rest ih =>
    have invertible : op ≠ .pow := by
      intro power
      rw [Op.undo_eq_none_iff.mpr power] at undone
      cases undone
    have goesOn : (op != .pow) = true := by simpa using invertible
    rw [Expr.operatorsAbove_of_pathTo? leads, List.takeWhile_cons, if_pos goesOn, ← ih]
    rfl

theorem Course.count (course : Course env x side path unknown other run) :
    run.steps.length = path.length ∨
      run.steps.length < path.length ∧ run.outcome = .error (.expression (.noInverse x .pow)) := by
  induction course with
  | alone other => exact Or.inl rfl
  | blocked leads lasting =>
    rw [Op.undo_eq_none_iff.mp lasting]
    exact Or.inr ⟨Nat.succ_pos _, rfl⟩
  | step leads undone rest ih =>
    simp only [List.length_cons]
    rcases ih with all | ⟨fewer, power⟩
    · exact Or.inl (by omega)
    · exact Or.inr ⟨by omega, power⟩

theorem Course.faults (course : Course env x side path unknown other run) {fault : Failure}
    (failed : run.outcome = .error fault) :
    fault = .expression (.noInverse x .pow) ∨ ∃ y, fault = .expression (.unresolved y) := by
  induction course with
  | alone other =>
    have outcome := other.eval_of_unbound? env
    cases missing : other.unbound? env with
    | none =>
      rw [missing] at outcome
      obtain ⟨v, value⟩ := outcome
      rw [show other.eval env = .error fault from failed] at value
      cases value
    | some y =>
      rw [missing] at outcome
      exact Or.inr ⟨y, Except.error.inj (failed.symm.trans outcome)⟩
  | blocked leads lasting =>
    rw [Op.undo_eq_none_iff.mp lasting] at failed
    exact Or.inl (Except.error.inj failed).symm
  | step leads undone rest ih => exact ih failed

/-! ### Runs -/

/-- Whether a run brings the unknown out of one side without ever needing its guards, and stops
early at a power and nowhere else. -/
structure Unhindered (env : Env α) (x : String) (side : Side) (path : List Slot)
    (unknown other : Expr α) (run : Solving α) : Prop where
  undone : run.steps.map (·.undone) = (unknown.operatorsAbove x).takeWhile (· != .pow)
  count : run.steps.length = path.length ∨
    run.steps.length < path.length ∧ run.outcome = .error (.expression (.noInverse x .pow))
  leads : ∀ i s, run.states[i]? = some s →
    ∃ u o, s = arrange side u o ∧ u.pathTo? x = some (path.drop i)
  unforced : ∀ limit more, path.length ≤ limit →
    along env x side limit (path ++ more) 0 unknown other = run
  faults : ∀ fault, run.outcome = .error (.expression fault) → fault.isGuard = false

theorem Course.unhindered (course : Course env x side path unknown other run) :
    Unhindered env x side path unknown other run where
  undone := course.undone
  count := course.count
  leads _ _ here := course.leads here
  unforced limit more room := course.unforced (by omega) more
  faults fault failed := by
    rcases course.faults failed with same | ⟨y, same⟩
    · cases same
      rfl
    · cases same
      rfl

end Solving

namespace Equation

variable {env : Env α} {x : String}

theorem unbound_of_accepted {occurrences : List (String × Nat)}
    (accepted : checkTarget env x occurrences = .ok ()) :
    env x = none ∧ occurrences.lookup x = some 1 := by
  unfold checkTarget at accepted
  split at accepted
  · cases accepted
  · rename_i unbound
    refine ⟨by simpa using unbound, ?_⟩
    cases found : occurrences.lookup x with
    | none =>
      rw [found] at accepted
      cases accepted
    | some n =>
      rw [found] at accepted
      by_cases once : n = 1
      · rw [once]
      · simp [once] at accepted

variable [Arithmetic α]

/-- The way of a run is that in the equation as it stands before anything is folded. -/
theorem solving_unhindered {lhs rhs : Expr α} {occurrences : List (String × Nat)}
    (accepted : checkTarget env x occurrences = .ok ())
    (once : (Sides.mk lhs rhs).names.count x = 1) :
    ∃ side path unknown other, Sides.mk lhs rhs = Solving.arrange side unknown other ∧
      unknown.pathTo? x = some path ∧ x ∉ other.names ∧
      Solving.Unhindered env x side path (unknown.simplify env) (other.simplify env)
        ((Equation.mk ⟨lhs, rhs⟩ occurrences).solving env x) := by
  obtain ⟨unbound, -⟩ := unbound_of_accepted accepted
  obtain ⟨side, path, unknown, other, arranged, found, -, absent⟩ := exists_arrange once
  refine ⟨side, path, unknown, other, arranged, found, absent, ?_⟩
  rw [(solve_of_accepted _ accepted).1, arranged]
  exact (Solving.course_of_isolate unbound side found absent).unhindered

end Equation

end Equate
