import Equate.Proofs.Solving.Inverses
import Equate.Proofs.Solving.Symmetry
import Equate.Proofs.Workspace.Solving

/-!
# Calls on one equation

An equation of a workspace may be solved several times, and every call finds it as the last one
left it: half-way, where that failed. `occurrences_conserved` and `solve_again` tell what such calls
can rely on, `solve_unhindered` that none of them loses its way, and `solve_retraced` what the first
one comes to. Written from right to left, an equation is solved alike (`solve_swapped`). They hold
in place because they hold of values and solving in place goes the same way (`calls_equates`).
-/

namespace Equate

variable {α : Type} {σ : Type} {f : Sides α → σ}

/-! ### What is told of a run -/

namespace Solving

theorem value_told (run : Solving α) : (run.told f).map Prod.fst = run.outcome := by
  unfold told
  cases run.outcome <;> rfl

theorem told_eq_ok_iff {run : Solving α} {v : α} {steps : List (SolveStep σ)} :
    run.told f = .ok (v, steps) ↔
      run.outcome = .ok v ∧ steps = run.steps.map (SolveStep.map f) := by
  unfold told
  cases run.outcome with
  | error fault => simp [Except.map]
  | ok w => simp [Except.map, eq_comm]

theorem told_swap (run : Solving α) : run.swap.told (fun s => f s.swap) = run.told f := by
  unfold told swap
  cases run.outcome with
  | error fault => rfl
  | ok v =>
    simp only [List.map_map]
    rfl

end Solving

namespace Work

variable [Arithmetic α] {w w' : Workspace α} {eq eq' : EquationEntry} {view view' : Work α σ}

/-! ### Sequences of calls -/

def after (view : Work α σ) (eq : EquationEntry) (w : Workspace α) (call : Call α) : Workspace α :=
  (effect (solve view call.env call.target eq) w).2

theorem calls_equates {e : Equation α} (equates : w.Equates eq e) (sees : Sees view eq f)
    (calls : List (Call α)) : (calls.foldl (after view eq) w).Equates eq (e.solveAll calls) := by
  induction calls generalizing w e with
  | nil => exact equates
  | cons call calls ih =>
    obtain ⟨w', solved, equates'⟩ := solve_equates equates sees call.env call.target
    have left : after view eq w call = w' := by rw [after, solved]
    rw [List.foldl_cons, left]
    exact ih equates'

/-- After any calls, and at every point within one, the variables of the two sides are as many as
the equation counted when it was formed or fewer, and not fewer where no call had a value for them.
The check of such a target comes out as if they were counted now. -/
theorem occurrences_conserved {lhs rhs : Expr α} (equates : w.Equates eq (.between lhs rhs))
    (sees : Sees view eq f) (calls : List (Call α)) :
    ∃ last : Sides α, (calls.foldl (after view eq) w).Equates eq ⟨last, eq.occurrences⟩ ∧
      (∀ t ∈ last :: (Equation.between lhs rhs).history calls, ∀ y,
        t.names.count y ≤ (eq.occurrences.lookup y).getD 0 ∧
        ((∀ call ∈ calls, call.env y = none) →
          t.names.count y = (eq.occurrences.lookup y).getD 0)) ∧
      ∀ y, (∀ call ∈ calls, call.env y = none) → ∀ env : Env α,
        Equation.checkTarget env y eq.occurrences =
          Equation.checkTarget env y (Equation.between last.lhs last.rhs).occurrences := by
  obtain ⟨pair, kept⟩ := calls_equates equates sees calls
  have conserved := (Equation.between lhs rhs).history_conserves calls
  refine ⟨_, ⟨pair, rfl⟩, ?_, ?_⟩
  · intro t member y
    rw [equates.counted, Equation.lookup_occurrences_between]
    exact conserved t member y
  · intro y unbound env
    have same := (conserved _ List.mem_cons_self y).2 unbound
    rw [equates.counted]
    exact Equation.checkTarget_tally env same.symm

/-- `(a + 1) * (a - x) = y`, solved for `x` with a value for `a` alone, and then for `y` with none:
the `a` of the sum is gone by then, the `y` went over and back. -/
theorem occurrences_conserved_by_two_calls :
    let lhs : Expr Float := .node .parsed .mul (.node .parsed .add (.var "a") (.lit 1))
      (.node .parsed .sub (.var "a") (.var "x"))
    let rhs : Expr Float := .var "y"
    let w : Workspace Float :=
      ⟨((Graph.empty.addExpr lhs).graph.addExpr rhs).graph, #[⟨6, []⟩, ⟨7, []⟩]⟩
    let eq : EquationEntry := ⟨0, 1, [("a", 2), ("x", 1), ("y", 1)]⟩
    let calls : List (Call Float) :=
      [⟨fun z => if z = "a" then some 2 else none, "x"⟩, ⟨fun _ => none, "y"⟩]
    w.Equates eq (.between lhs rhs) ∧ (∀ call ∈ calls, call.env "y" = none) ∧
      ∃ last : Sides Float,
        (calls.foldl (after (sides eq) eq) w).Equates eq ⟨last, eq.occurrences⟩ ∧
        last.names.count "y" = 1 ∧ last.names.count "a" ≤ 2 := by
  intro lhs rhs w eq calls
  have own : w.graph.OwnTokens := (Graph.ownTokens_empty.addExpr lhs).addExpr rhs
  have equates : w.Equates eq (.between lhs rhs) :=
    ⟨⟨own, by decide, ⟨⟨6, []⟩, rfl, rfl⟩, ⟨⟨7, []⟩, rfl, rfl⟩⟩, rfl⟩
  have unbound : ∀ call ∈ calls, call.env "y" = none := by
    intro call member
    simp only [calls, List.mem_cons, List.not_mem_nil, or_false] at member
    rcases member with rfl | rfl <;> rfl
  obtain ⟨last, left, counted, -⟩ := occurrences_conserved equates (sees_sides eq) calls
  have here := counted last List.mem_cons_self
  exact ⟨equates, unbound, last, left, (here "y").2 unbound, (here "a").1⟩

/-! ### The value of a solution -/

/-- A solution in place is the value that comes from the other side when the operators above the
unknown are taken back, and its steps tell of these. -/
theorem solve_retraced {lhs rhs : Expr α} (equates : w.Equates eq (.between lhs rhs))
    (sees : Sees view eq f) {env : Env α} {x : String} {v : α} {steps : List (SolveStep σ)}
    (solved : (effect (solve view env x eq) w).1 = .ok (v, steps)) :
    ∃ side unknown other, Sides.mk lhs rhs = Solving.arrange side unknown other ∧
      unknown.names.count x = 1 ∧ x ∉ other.names ∧
      Solving.Retraced env x unknown other v steps := by
  obtain ⟨w', told, -⟩ := solve_equates equates sees env x
  rw [told] at solved
  obtain ⟨outcome, rfl⟩ := Solving.told_eq_ok_iff.mp solved
  obtain ⟨side, unknown, other, arranged, once, absent, retraced⟩ :=
    Equation.solving_retraced outcome
  refine ⟨side, unknown, other, arranged, once, absent, ⟨retraced.invertible, retraced.value, ?_⟩⟩
  rw [List.map_map]
  exact retraced.steps

/-- `12 / (a - x) = 3`: both times the unknown is on the right, so that the quotient is taken back
by a division and the difference by a subtraction. -/
theorem solve_retraced_of_quotient :
    let lhs : Expr Float := .node .parsed .div (.lit 12)
      (.node .parsed .sub (.var "a") (.var "x"))
    let rhs : Expr Float := .lit 3
    let w : Workspace Float :=
      ⟨((Graph.empty.addExpr lhs).graph.addExpr rhs).graph, #[⟨4, []⟩, ⟨5, []⟩]⟩
    let eq : EquationEntry := ⟨0, 1, [("a", 1), ("x", 1)]⟩
    let env : Env Float := fun x => if x = "a" then some 10 else none
    w.Equates eq (.between lhs rhs) ∧
      ∃ v steps, (effect (solve (sides eq) env "x" eq) w).1 = .ok (v, steps) ∧
        v = Arithmetic.apply .sub 10 (Arithmetic.apply .div 12 3) ∧
        steps.map (fun s => (s.undone, s.slot, s.applied)) =
          [(.div, .right, .div), (.sub, .right, .sub)] := by
  intro lhs rhs w eq env
  have own : w.graph.OwnTokens := (Graph.ownTokens_empty.addExpr lhs).addExpr rhs
  have equates : w.Equates eq (.between lhs rhs) :=
    ⟨⟨own, by decide, ⟨⟨4, []⟩, rfl, rfl⟩, ⟨⟨5, []⟩, rfl, rfl⟩⟩, rfl⟩
  have finished : (effect (solve (sides eq) env "x" eq) w).1.isOk = true := by decide +kernel
  cases solved : (effect (solve (sides eq) env "x" eq) w).1 with
  | error f =>
    rw [solved] at finished
    cases finished
  | ok result =>
    obtain ⟨side, unknown, other, arranged, once, -, retraced⟩ :=
      solve_retraced equates (sees_sides eq) solved
    cases side with
    | left =>
      cases arranged
      obtain ⟨r, value, chain⟩ := retraced.value
      cases value
      exact ⟨equates, _, _, rfl, (Except.ok.inj chain).symm, retraced.steps⟩
    | right =>
      cases arranged
      cases once

/-! ### Solving again -/

theorem solve_value {e : Equation α} (equates : w.Equates eq e) (sees : Sees view eq f)
    (env : Env α) (x : String) :
    (effect (solve view env x eq) w).1.map Prod.fst = (e.solving env x).outcome := by
  obtain ⟨w', told, -⟩ := solve_equates equates sees env x
  rw [told, Solving.value_told]

/-- Solving again for the same unknown, with the same values and perhaps more, gives the outcome
that solving with these values at once would give, and leaves the same sides, whatever came of the
first call. No operator is moved any more, and nothing changes where there was a solution. -/
theorem solve_again {lhs rhs : Expr α} (equates : w.Equates eq (.between lhs rhs))
    (fresh : w'.Equates eq' (.between lhs rhs)) (sees : Sees view eq f) (sees' : Sees view' eq' f)
    {few env : Env α} (wider : env.Extends few) {x : String} (unbound : env x = none) :
    let first := effect (solve view few x eq) w
    let again := effect (solve view env x eq) first.2
    let direct := effect (solve view' env x eq') w'
    again.1.map Prod.fst = direct.1.map Prod.fst ∧
      (∃ e, again.2.Equates eq e ∧ direct.2.Equates eq' e) ∧
      (∀ v steps, again.1 = .ok (v, steps) → steps = []) ∧
      ∀ v steps, first.1 = .ok (v, steps) →
        again.1 = .ok (v, []) ∧ ∃ e, first.2.Equates eq e ∧ again.2.Equates eq e := by
  intro first again direct
  obtain ⟨same, still, kept⟩ := Equation.solve_resumed lhs rhs x wider unbound
  obtain ⟨w₁, told₁, equates₁⟩ := solve_equates equates sees few x
  obtain ⟨w₂, told₂, equates₂⟩ := solve_equates equates₁ sees env x
  obtain ⟨w₃, told₃, equates₃⟩ := solve_equates fresh sees' env x
  have again_eq : again = effect (solve view env x eq) w₁ := by
    simp only [again, first, told₁]
  simp only [again_eq, told₁, told₂, told₃, first, direct]
  refine ⟨?_, ⟨_, equates₂, ?_⟩, ?_, ?_⟩
  · rw [Solving.value_told, Solving.value_told]
    exact congrArg Prod.snd same
  · rw [same]
    exact equates₃
  · intro v steps solved
    rw [(Solving.told_eq_ok_iff.mp solved).2, still]
    rfl
  · intro v steps solved
    have resolved := kept v (Solving.told_eq_ok_iff.mp solved).1
    have outcome : _ = Except.ok v := congrArg Prod.snd resolved
    refine ⟨Solving.told_eq_ok_iff.mpr ⟨outcome, ?_⟩, _, equates₁, ?_⟩
    · rw [still]
      rfl
    · rw [resolved] at equates₂
      exact equates₂

/-- `2 * (x + y) - z = 10`: a call that knows `z` alone stops at the missing `y`, and the next one,
which knows both, has only the rest to evaluate. -/
theorem solve_again_after_missing_value :
    let lhs : Expr Float := .node .parsed .sub
      (.node .parsed .mul (.lit 2) (.node .parsed .add (.var "x") (.var "y"))) (.var "z")
    let rhs : Expr Float := .lit 10
    let w : Workspace Float :=
      ⟨((Graph.empty.addExpr lhs).graph.addExpr rhs).graph, #[⟨6, []⟩, ⟨7, []⟩]⟩
    let eq : EquationEntry := ⟨0, 1, [("x", 1), ("y", 1), ("z", 1)]⟩
    let few : Env Float := fun x => if x = "z" then some 4 else none
    let env : Env Float := fun x => if x = "y" then some 1 else few x
    let first := effect (solve (sides eq) few "x" eq) w
    let again := effect (solve (sides eq) env "x" eq) first.2
    let direct := effect (solve (sides eq) env "x" eq) w
    w.Equates eq (.between lhs rhs) ∧ env.Extends few ∧ env "x" = none ∧
      (first.1.map Prod.fst).isOk = false ∧ (again.1.map Prod.fst).isOk = true ∧
      again.1.map Prod.fst = direct.1.map Prod.fst ∧
      ∃ e, again.2.Equates eq e ∧ direct.2.Equates eq e := by
  intro lhs rhs w eq few env first again direct
  have own : w.graph.OwnTokens := (Graph.ownTokens_empty.addExpr lhs).addExpr rhs
  have equates : w.Equates eq (.between lhs rhs) :=
    ⟨⟨own, by decide, ⟨⟨6, []⟩, rfl, rfl⟩, ⟨⟨7, []⟩, rfl, rfl⟩⟩, rfl⟩
  have wider : env.Extends few := by
    intro x v bound
    by_cases other : x = "y"
    · subst other
      cases bound
    · simp only [env, if_neg other]
      exact bound
  have sees := sees_sides (α := Float) eq
  have unbound : env "x" = none := rfl
  obtain ⟨same, last, -, -⟩ := solve_again equates equates sees sees wider unbound
  have failed : (first.1.map Prod.fst).isOk = false := by
    rw [solve_value equates sees]
    decide +kernel
  have solved : (direct.1.map Prod.fst).isOk = true := by
    rw [solve_value equates sees]
    decide +kernel
  have solvedAgain : (again.1.map Prod.fst).isOk = true := by
    rw [← solved]
    exact congrArg Except.isOk same
  exact ⟨equates, wider, unbound, failed, solvedAgain, same, last⟩

/-! ### The way to the unknown -/

/-- A call that accepts its target takes as many steps as the target lies deep, unless a power stops
it, whatever calls came before. It finds its way once and never loses it. -/
theorem solve_unhindered {lhs rhs : Expr α} (equates : w.Equates eq (.between lhs rhs))
    (sees : Sees view eq f) (calls : List (Call α)) {x : String}
    (unbound : ∀ call ∈ calls, call.env x = none) {env : Env α}
    (accepted : Equation.checkTarget env x eq.occurrences = .ok ()) :
    let ready := calls.foldl (after view eq) w
    ∃ side path unknown other run ends,
      ready.Equates eq ⟨Solving.arrange side unknown other, eq.occurrences⟩ ∧
      unknown.pathTo? x = some path ∧ x ∉ other.names ∧
      effect (solve view env x eq) ready = (run.told f, ends) ∧
      ends.Equates eq ⟨run.sides, eq.occurrences⟩ ∧
      Solving.Unhindered env x side path (unknown.simplify env) (other.simplify env) run := by
  intro ready
  obtain ⟨pair, kept⟩ := calls_equates equates sees calls
  have conserved := ((Equation.between lhs rhs).history_conserves calls _ List.mem_cons_self x).2
  have once : (Sides.mk lhs rhs).names.count x = 1 := by
    rw [← Equation.lookup_occurrences_between, ← equates.counted,
      (Equation.unbound_of_accepted accepted).2]
    rfl
  generalize (Equation.between lhs rhs).solveAll calls = last at pair conserved
  have onceLeft : last.sides.names.count x = 1 := (conserved unbound).trans once
  have left : ready.Equates eq ⟨last.sides, eq.occurrences⟩ := ⟨pair, rfl⟩
  obtain ⟨side, path, unknown, other, arranged, found, absent, unhindered⟩ :=
    Equation.solving_unhindered accepted onceLeft
  obtain ⟨ends, told, equates'⟩ := solve_equates left sees env x
  have arranged : last.sides = Solving.arrange side unknown other := arranged
  exact ⟨side, path, unknown, other, _, ends, arranged ▸ left, found, absent, told, equates',
    unhindered⟩

/-- `(x + b) * 2 - c = y`, solved for `b` with no values at all, which brings all the rest to the
other side, and then for `x`. -/
theorem solve_unhindered_after_failure :
    let lhs : Expr Float := .node .parsed .sub
      (.node .parsed .mul (.node .parsed .add (.var "x") (.var "b")) (.lit 2)) (.var "c")
    let rhs : Expr Float := .var "y"
    let w : Workspace Float :=
      ⟨((Graph.empty.addExpr lhs).graph.addExpr rhs).graph, #[⟨6, []⟩, ⟨7, []⟩]⟩
    let eq : EquationEntry := ⟨0, 1, [("x", 1), ("b", 1), ("c", 1), ("y", 1)]⟩
    let calls : List (Call Float) := [⟨fun _ => none, "b"⟩]
    let env : Env Float := fun z => if z = "x" then none else some 3
    let ready := calls.foldl (after (sides eq) eq) w
    w.Equates eq (.between lhs rhs) ∧ (∀ call ∈ calls, call.env "x" = none) ∧
      Equation.checkTarget env "x" eq.occurrences = .ok () ∧ ∃ side path unknown other v steps,
        ready.Equates eq ⟨Solving.arrange side unknown other, eq.occurrences⟩ ∧
        unknown.pathTo? "x" = some path ∧ steps.length = path.length ∧
        (effect (solve (sides eq) env "x" eq) ready).1 = .ok (v, steps) := by
  intro lhs rhs w eq calls env ready
  have own : w.graph.OwnTokens := (Graph.ownTokens_empty.addExpr lhs).addExpr rhs
  have equates : w.Equates eq (.between lhs rhs) :=
    ⟨⟨own, by decide, ⟨⟨6, []⟩, rfl, rfl⟩, ⟨⟨7, []⟩, rfl, rfl⟩⟩, rfl⟩
  have unbound : ∀ call ∈ calls, call.env "x" = none := by
    intro call member
    rw [List.mem_singleton.mp member]
  have accepted : Equation.checkTarget env "x" eq.occurrences = .ok () := rfl
  have finished : ((effect (solve (sides eq) env "x" eq) ready).1.map Prod.fst).isOk = true := by
    decide +kernel
  obtain ⟨side, path, unknown, other, run, ends, left, found, -, told, -, unhindered⟩ :=
    solve_unhindered equates (sees_sides eq) calls unbound accepted
  rw [told, Solving.value_told] at finished
  cases outcome : run.outcome with
  | error fault =>
    rw [outcome] at finished
    cases finished
  | ok v =>
    have all : run.steps.length = path.length :=
      unhindered.count.resolve_right fun ⟨_, failed⟩ => nomatch outcome.symm.trans failed
    refine ⟨equates, unbound, accepted, side, path, unknown, other, v, _, left, found, ?_,
      (congrArg Prod.fst told).trans (Solving.told_eq_ok_iff.mpr ⟨outcome, rfl⟩)⟩
    rw [List.length_map, all]

/-! ### From right to left -/

/-- With the sides swapped, all calls come to the same outcome by the same steps, and leave the same
equation with its sides swapped. -/
theorem solve_swapped {lhs rhs : Expr α} (equates : w.Equates eq (.between lhs rhs))
    (mirrored : w'.Equates eq' (.between rhs lhs)) (sees : Sees view eq f)
    (sees' : Sees view' eq' fun s => f s.swap) (calls : List (Call α)) (env : Env α) (x : String) :
    let run := ((Equation.between lhs rhs).solveAll calls).solving env x
    let one := effect (solve view env x eq) (calls.foldl (after view eq) w)
    let two := effect (solve view' env x eq') (calls.foldl (after view' eq') w')
    one.1 = run.told f ∧ two.1 = run.told f ∧
      ((Equation.between rhs lhs).solveAll calls).solving env x = run.swap ∧
      one.2.Equates eq ⟨run.sides, eq.occurrences⟩ ∧
      two.2.Equates eq' ⟨run.sides.swap, eq'.occurrences⟩ := by
  intro run one two
  have same := ((Equation.mirrors_between lhs rhs).solveAll calls).solving env x
  obtain ⟨ends, told, left, -⟩ := solve_equates (calls_equates equates sees calls) sees env x
  obtain ⟨ends', told', left', -⟩ := solve_equates (calls_equates mirrored sees' calls) sees' env x
  simp only [Equation.solve, same] at told' left'
  simp only [one, two, told, told']
  exact ⟨rfl, Solving.told_swap run, same, ⟨left, rfl⟩, ⟨left', rfl⟩⟩

/-- `12 / (a - x) = 3` and `3 = 12 / (a - x)`, each solved without a value for `a` and then with
one. -/
theorem solve_swapped_of_quotient :
    let lhs : Expr Float := .node .parsed .div (.lit 12)
      (.node .parsed .sub (.var "a") (.var "x"))
    let rhs : Expr Float := .lit 3
    let w : Workspace Float :=
      ⟨((Graph.empty.addExpr lhs).graph.addExpr rhs).graph, #[⟨4, []⟩, ⟨5, []⟩]⟩
    let eq : EquationEntry := ⟨0, 1, [("a", 1), ("x", 1)]⟩
    let eq' : EquationEntry := ⟨1, 0, [("a", 1), ("x", 1)]⟩
    let calls : List (Call Float) := [⟨fun _ => none, "x"⟩]
    let env : Env Float := fun x => if x = "a" then some 10 else none
    let one := effect (solve (pure ()) env "x" eq) (calls.foldl (after (pure ()) eq) w)
    let two := effect (solve (pure ()) env "x" eq') (calls.foldl (after (pure ()) eq') w)
    w.Equates eq (.between lhs rhs) ∧ w.Equates eq' (.between rhs lhs) ∧ two.1 = one.1 ∧
      (one.1.map Prod.fst).isOk = true ∧ ∃ s : Sides Float,
        one.2.Equates eq ⟨s, eq.occurrences⟩ ∧ two.2.Equates eq' ⟨s.swap, eq'.occurrences⟩ := by
  intro lhs rhs w eq eq' calls env one two
  have own : w.graph.OwnTokens := (Graph.ownTokens_empty.addExpr lhs).addExpr rhs
  have left : w.Holds 0 lhs := ⟨⟨4, []⟩, rfl, rfl⟩
  have right : w.Holds 1 rhs := ⟨⟨5, []⟩, rfl, rfl⟩
  have equates : w.Equates eq (.between lhs rhs) := ⟨⟨own, by decide, left, right⟩, rfl⟩
  have mirrored : w.Equates eq' (.between rhs lhs) := ⟨⟨own, by decide, right, left⟩, rfl⟩
  have finished : (one.1.map Prod.fst).isOk = true := by decide +kernel
  obtain ⟨told, told', -, last, last'⟩ :=
    solve_swapped equates mirrored (sees_nothing eq) (sees_nothing eq') calls env "x"
  exact ⟨equates, mirrored, told'.trans told.symm, finished, _, last, last'⟩

end Work

end Equate
