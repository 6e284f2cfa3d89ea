import Equate.Proofs.Solving.Exact
import Equate.Proofs.Solving.States

/-!
# Solutions are kept

In exact arithmetic every equation that a run passes through has the solutions of the first one,
as far as no divisor is zero. `solutions_kept`: so it is over any sequence of calls on an equation,
also where some of them fail midway, and a value that comes out of a call is that of every solution.
-/

namespace Equate

variable {pow : ℚ → ℚ → ℚ} {env : Env (Exact pow)} {s : String → ℚ}

/-! ### One run -/

theorem Trail.holds_iff (agrees : (Exact.assignment s).Extends env) {t u : Sides (Exact pow)}
    {ts : List (Sides (Exact pow))} (trail : Trail (Sides.Step env) t ts u)
    (defined : ∀ w ∈ t :: ts, w.Defined s) : ∀ w ∈ ts, w.Holds s ↔ t.Holds s := by
  induction trail with
  | nil t => exact nofun
  | @cons t t' u ts step rest ih =>
    have later : ∀ w ∈ t' :: ts, w.Defined s :=
      fun w member => defined w (List.mem_cons_of_mem t member)
    have first : t'.Holds s ↔ t.Holds s :=
      step.holds_iff agrees (defined t List.mem_cons_self) (later t' List.mem_cons_self)
    intro w member
    rcases List.mem_cons.mp member with rfl | member
    · exact first
    · exact (ih later w member).trans first

theorem Equation.stages_kept (agrees : (Exact.assignment s).Extends env)
    (eq : Equation (Exact pow)) (x : String)
    (defined : ∀ t ∈ eq.sides :: eq.stages env x, t.Defined s) :
    (∀ t ∈ eq.stages env x, t.Holds s ↔ eq.sides.Holds s) ∧
    (eq.solving env x).sides.Defined s ∧
    ((eq.solving env x).sides.Holds s ↔ eq.sides.Holds s) := by
  have trail := eq.solving_trail env x
  have kept := trail.holds_iff agrees defined
  refine ⟨kept, ?_⟩
  rcases trail.last_mem with same | member
  · rw [same]
    exact ⟨defined eq.sides List.mem_cons_self, Iff.rfl⟩
  · exact ⟨defined _ (List.mem_cons_of_mem eq.sides member), kept _ member⟩

theorem Equation.holds_iff_of_solved (agrees : (Exact.assignment s).Extends env)
    {eq : Equation (Exact pow)} {x : String} {v : Exact pow}
    (solved : (eq.solving env x).outcome = .ok v)
    (defined : (eq.solving env x).sides.Defined s) :
    (eq.solving env x).sides.Holds s ↔ v = Exact.number (s x) := by
  obtain ⟨side, e, sides, -, value, -⟩ := sides_of_solved solved
  rw [sides] at defined ⊢
  obtain ⟨-, q, -, result⟩ := defined.values
  have same : v = Exact.number q := by
    have wide := Expr.eval_extends agrees value
    rw [Expr.eval_assignment, result] at wide
    exact (Except.ok.inj wide).symm
  rw [Sides.holds_arrange (Expr.valueAt?_var s x) result, same]
  constructor
  · rintro rfl
    rfl
  · intro equal
    cases equal
    rfl

/-! ### All runs -/

namespace Equation

/-- An assignment that agrees with what the calls are given, and under which no divisor is zero,
solves the equation exactly if it solves any of those that the calls leave, and exactly if it gives
a target the value that came out for it. -/
theorem solutions_kept (calls : List (Call (Exact pow))) (eq : Equation (Exact pow))
    (s : String → ℚ) (agrees : ∀ call ∈ calls, (Exact.assignment s).Extends call.env)
    (defined : ∀ t ∈ eq.sides :: eq.history calls, t.Defined s) :
    (∀ t ∈ eq.history calls, t.Holds s ↔ eq.sides.Holds s) ∧
    ((eq.solveAll calls).sides.Holds s ↔ eq.sides.Holds s) ∧
    ∀ answer ∈ eq.answers calls, ∀ v, answer.2 = .ok v →
      (eq.sides.Holds s ↔ v = Exact.number (s answer.1)) := by
  induction calls generalizing eq with
  | nil => exact ⟨nofun, Iff.rfl, nofun⟩
  | cons call calls ih =>
    have here : (Exact.assignment s).Extends call.env := agrees call List.mem_cons_self
    have stages : ∀ t ∈ eq.sides :: eq.stages call.env call.target, t.Defined s :=
      fun t member => defined t (List.mem_append_left _ member)
    -- the next calls find the equation that this one leaves, with the same solutions
    obtain ⟨kept, leaves, last⟩ := eq.stages_kept here call.target stages
    have later : ∀ t ∈ (eq.solve call.env call.target).1.sides ::
        (eq.solve call.env call.target).1.history calls, t.Defined s := by
      intro t member
      rcases List.mem_cons.mp member with rfl | member
      · exact leaves
      · exact defined t (List.mem_cons_of_mem _ (List.mem_append_right _ member))
    obtain ⟨keptLater, lastLater, found⟩ := ih (eq.solve call.env call.target).1
      (fun next member => agrees next (List.mem_cons_of_mem call member)) later
    refine ⟨?_, lastLater.trans last, ?_⟩
    · intro t member
      rcases List.mem_append.mp member with member | member
      · exact kept t member
      · exact (keptLater t member).trans last
    · intro answer member v solved
      rcases List.mem_cons.mp member with rfl | member
      · exact last.symm.trans (holds_iff_of_solved here solved leaves)
      · exact last.symm.trans (found answer member v solved)

/-- `12 / (x + 1) - y = 2 ^ 3` without a value for `y`, so that no value comes out for `x`, and
then for `y` with that of `x`. -/
theorem solutions_of_two_calls :
    let pow : ℚ → ℚ → ℚ := fun a b => a ^ b.num
    let number (q : ℚ) : Expr (Exact pow) := .lit (Exact.number q)
    let eq : Equation (Exact pow) := .between
      (.node .parsed .sub
        (.node .parsed .div (number 12) (.node .parsed .add (.var "x") (number 1))) (.var "y"))
      (.node .parsed .pow (number 2) (number 3))
    let calls : List (Call (Exact pow)) :=
      [⟨fun _ => none, "x"⟩, ⟨fun z => if z = "x" then some (Exact.number 0) else none, "y"⟩]
    let s : String → ℚ := fun z => if z = "y" then 4 else 0
    (∀ call ∈ calls, (Exact.assignment s).Extends call.env) ∧
    (∀ t ∈ eq.sides :: eq.history calls, t.Defined s) ∧
    ("y", .ok (Exact.number 4)) ∈ eq.answers calls ∧
    (eq.history calls).length = 7 ∧
    (∀ t ∈ eq.history calls, t.Holds s ↔ eq.sides.Holds s) ∧
    (eq.sides.Holds s ↔ (Exact.number 4 : Exact pow) = Exact.number (s "y")) := by
  intro pow number eq calls s
  have agrees : ∀ call ∈ calls, (Exact.assignment s).Extends call.env := by
    intro call member x v bound
    rcases List.mem_cons.mp member with rfl | member
    · cases bound
    · rw [List.mem_singleton.mp member] at bound
      obtain ⟨rfl, value⟩ := Option.ite_none_right_eq_some.mp bound
      exact value
  have defined : ∀ t ∈ eq.sides :: eq.history calls, t.Defined s := by decide +kernel
  have found : ("y", .ok (Exact.number 4)) ∈ eq.answers calls := by
    have second : eq.answers calls = [("x", .error (.expression (.unresolved "y"))),
      ("y", .ok (Exact.number 4))] := by decide +kernel
    rw [second]
    exact List.mem_cons_of_mem _ List.mem_cons_self
  obtain ⟨kept, -, solved⟩ := solutions_kept calls eq s agrees defined
  exact ⟨agrees, defined, found, by decide +kernel, kept, solved _ found _ rfl⟩

end Equation

end Equate
