import Equate.Proofs.Solving.Guards
import Equate.Proofs.Solving.Occurrences

/-!
# Equations read from right to left

Which side is looked at first, which one loses operators and which one gains them makes no
difference: where the unknown occurs no more than once, a run on the swapped sides is the swapped
run (`isolate_swap`). Equations that mirror each other therefore still do after any calls
(`Mirrors.solveAll`).
-/

namespace Equate

variable {α : Type}

def Side.other : Side → Side
  | left => right
  | right => left

theorem Sides.swap_arrange (side : Side) (unknown other : Expr α) :
    (Solving.arrange side unknown other).swap = Solving.arrange side.other unknown other := by
  cases side <;> rfl

theorem Sides.count_names_swap (s : Sides α) (y : String) :
    s.swap.names.count y = s.names.count y := by
  simp only [swap, names_eq, List.count_append, Nat.add_comm]

namespace Solving

def swap (run : Solving α) : Solving α :=
  ⟨run.steps.map (SolveStep.map Sides.swap), run.sides.swap, run.outcome⟩

variable [Arithmetic α] {env : Env α} {x : String}

theorem Course.swap {side : Side} {path : List Slot} {unknown other : Expr α} {run : Solving α}
    (course : Course env x side path unknown other run) :
    Course env x side.other path unknown other run.swap := by
  induction course with
  | alone other =>
    have mirrored : Course env x side.other _ _ other _ := .alone other
    rwa [← Sides.swap_arrange] at mirrored
  | @blocked o op l r other slot path leads lasting =>
    have mirrored : Course env x side.other _ _ other _ := .blocked leads lasting
    rwa [← Sides.swap_arrange] at mirrored
  | step leads undone rest ih =>
    have mirrored := Course.step leads undone ih
    rwa [← Sides.swap_arrange, ← Sides.swap_arrange] at mirrored

theorem isolate_of_absent {s : Sides α} (unbound : env x = none) (absent : x ∉ s.names) :
    isolate env x s = stop (.notFound x) ⟨s.lhs.simplify env, s.rhs.simplify env⟩ := by
  rw [Sides.names_eq, List.mem_append, not_or] at absent
  have left := Expr.pathTo?_eq_none_iff.mpr absent.1
  have right := Expr.pathTo?_eq_none_iff.mpr absent.2
  simp only [isolate, Expr.pathTo?_simplify unbound, left, right]

theorem isolate_swap (unbound : env x = none) {s : Sides α} (rare : s.names.count x ≤ 1) :
    isolate env x s.swap = (isolate env x s).swap := by
  by_cases once : s.names.count x = 1
  · obtain ⟨side, path, unknown, other, arranged, found, -, absent⟩ :=
      Equation.exists_arrange once
    obtain rfl : s = arrange side unknown other := arranged
    have course := course_of_isolate unbound side found absent
    have mirrored := course_of_isolate unbound side.other found absent
    rw [Sides.swap_arrange]
    -- both are the run along the same way, with the unknown on the other side
    have room : 0 + path.length ≤ path.length := by omega
    rw [← mirrored.unforced room [], ← course.swap.unforced room []]
  · have absent : x ∉ s.names := List.count_eq_zero.mp (by omega)
    have absent' : x ∉ s.swap.names := by
      rw [← List.count_eq_zero, Sides.count_names_swap]
      exact List.count_eq_zero.mpr absent
    rw [isolate_of_absent unbound absent, isolate_of_absent unbound absent']
    rfl

end Solving

namespace Equation

/-- Whether the second equation is the first with its sides swapped, both with the same counts,
which no variable exceeds. -/
structure Mirrors (e e' : Equation α) : Prop where
  swapped : e'.sides = e.sides.swap
  counted : ∀ y, e'.occurrences.lookup y = e.occurrences.lookup y
  bounded : ∀ y, e.sides.names.count y ≤ (e.occurrences.lookup y).getD 0

theorem mirrors_between (lhs rhs : Expr α) : (between lhs rhs).Mirrors (between rhs lhs) where
  swapped := rfl
  counted y := by
    have same : (Sides.mk rhs lhs).names.count y = (Sides.mk lhs rhs).names.count y :=
      Sides.count_names_swap ⟨lhs, rhs⟩ y
    simp only [between, lookup_tally, same]
  bounded y := Nat.le_of_eq (lookup_occurrences_between lhs rhs y).symm

variable [Arithmetic α]

section Mirrors

variable {e e' : Equation α} (mirrors : e.Mirrors e')
include mirrors

theorem Mirrors.solving (env : Env α) (x : String) :
    e'.solving env x = (e.solving env x).swap := by
  obtain ⟨sides, occurrences⟩ := e
  obtain ⟨sides', occurrences'⟩ := e'
  obtain ⟨rfl, counted, bounded⟩ := mirrors
  have alike : checkTarget env x occurrences' = checkTarget env x occurrences := by
    simp only [checkTarget, show occurrences'.lookup x = occurrences.lookup x from counted x]
  cases checked : checkTarget env x occurrences with
  | error fault =>
    rw [(solve_of_refused ⟨sides, occurrences⟩ checked).1,
      (solve_of_refused ⟨sides.swap, occurrences'⟩ (alike.trans checked)).1]
    rfl
  | ok _ =>
    obtain ⟨unbound, one⟩ := unbound_of_accepted checked
    have once : sides.names.count x ≤ 1 := by
      have most := bounded x
      rwa [show occurrences.lookup x = some 1 from one] at most
    rw [(solve_of_accepted sides checked).1,
      (solve_of_accepted sides.swap (alike.trans checked)).1]
    exact Solving.isolate_swap unbound once

theorem Mirrors.solve (env : Env α) (x : String) :
    (e.solve env x).1.Mirrors (e'.solve env x).1 where
  swapped := congrArg Solving.sides (mirrors.solving env x)
  counted := mirrors.counted
  bounded y :=
    Nat.le_trans ((Sides.conserves_of_trail (e.solving_trail env x)).1.no_more y)
      (mirrors.bounded y)

theorem Mirrors.solveAll (calls : List (Call α)) :
    (e.solveAll calls).Mirrors (e'.solveAll calls) := by
  induction calls generalizing e e' with
  | nil => exact mirrors
  | cons call calls ih => exact ih (mirrors.solve call.env call.target)

end Mirrors

end Equation

end Equate
