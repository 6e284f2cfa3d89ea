import Equate.Proofs.Workspace.Solving
import Equate.Session

/-!
# Watching a run

A run is watched when a trace is asked for or when everything is logged: the equation is then
written out at the start, around every step and at the end. `solve_watched`: this changes neither
what comes of the run nor the workspace it leaves, and the equations written out follow each other
without a gap. Sessions solve in this way (`perform_solve`).
-/

namespace Equate

namespace Work

def shown (eq : EquationEntry) : Work Float String := return Session.equationText (← sides eq)

/-- Solves an equation and writes it out on the way, if a trace is wanted or everything is logged.
Only a trace that is wanted is given. -/
def watched (trace debug : Bool) (env : Env Float) (x : String) (eq : EquationEntry) :
    Work Float (Float × Option Trace) := do
  if trace || debug then
    let initial ← shown eq
    let (v, steps) ← solve (shown eq) env x eq
    let final ← shown eq
    let record : Trace := ⟨some x, some initial, some final, some v, steps.map (·.trace id)⟩
    return (v, if trace then some record else none)
  else
    let (v, _) ← solve (pure ()) env x eq
    return (v, none)

theorem sees_shown (eq : EquationEntry) : Sees (shown eq) eq (Sides.text Number.short) := by
  intro w l r pair
  rw [shown, effect_bind (sees_sides eq w l r pair)]
  simp only [Session.equationText, Expr.toRpn_toTree]
  rfl

variable {w : Workspace Float} {eq : EquationEntry} {e : Equation Float}

/-- Watched or not, a run comes to the same outcome and leaves the same workspace. -/
theorem effect_watched (equates : w.Equates eq e) (env : Env Float) (x : String) :
    let run := e.solving env x
    ∃ w', w'.Equates eq ⟨run.sides, eq.occurrences⟩ ∧
      ∀ trace debug, effect (watched trace debug env x eq) w =
        (run.outcome.map fun v => (v, if trace then some (run.trace x e.sides v) else none),
          w') := by
  intro run
  obtain ⟨w', solves⟩ := solveBy_solves equates env x
  refine ⟨w', solves.equates, fun trace debug => ?_⟩
  have seen := solves.told (moves_moveOver env) ((sees_shown eq).shows env)
  have unseen := solves.told (moves_moveOver env) ((sees_nothing eq).shows env)
  rw [← solve_eq] at seen unseen
  have initial := sees_shown eq w _ _ equates.pair
  have final := sees_shown eq w' _ _ solves.equates.pair
  unfold watched
  by_cases watching : (trace || debug) = true
  · rw [if_pos watching, effect_bind initial, effect_bind_told seen]
    cases run.outcome with
    | error fault => rfl
    | ok v =>
      simp only [List.map_map]
      exact effect_bind final
  · rw [if_neg watching, effect_bind_told unseen]
    obtain ⟨rfl, rfl⟩ : trace = false ∧ debug = false := by simpa using watching
    cases run.outcome <;> rfl

/-- Tracing and logging are of no consequence to a run. The equations of its trace follow each other
without a gap, from the simplified one to the last. That one has the unknown alone on one side, and
on the other a leaf with its value, which is a literal if any operator was moved. -/
theorem solve_watched (equates : w.Equates eq e) (env : Env Float) (x : String) :
    let run := e.solving env x
    let record := run.trace x e.sides
    ∃ w', w'.Equates eq ⟨run.sides, eq.occurrences⟩ ∧
      (∀ trace debug, effect (watched trace debug env x eq) w =
        (run.outcome.map fun v => (v, if trace then some (record v) else none), w')) ∧
      ∀ v, run.outcome = .ok v →
        (record v).steps.map (·.before) ++ (record v).final.toList =
          (e.sides.simplify env).text Number.short :: (record v).steps.map (·.after) ∧
        ∃ side leaf, run.sides = Solving.arrange side (.var x) leaf ∧ leaf.isLeaf = true ∧
          leaf.eval env = .ok v ∧ (run.steps ≠ [] → leaf = .lit v) := by
  intro run record
  obtain ⟨w', left, effects⟩ := effect_watched equates env x
  refine ⟨w', left, effects, fun v solved => ?_⟩
  refine ⟨?_, Equation.sides_of_solved solved⟩
  have chain := (Solving.isolate_states env x e.sides).1
  rw [← Equation.solving_of_solved solved] at chain
  have texts := congrArg (List.map (Sides.text Number.short)) chain
  simp only [Solving.states, List.map_append, List.map_cons, List.map_map] at texts
  simp only [record, Solving.trace, List.map_map]
  exact texts

/-- `12 / (a - x) = 3`, traced, then only logged: there are two steps, and three equations. -/
theorem solve_watched_of_quotient :
    let lhs : Expr Float := .node .parsed .div (.lit 12)
      (.node .parsed .sub (.var "a") (.var "x"))
    let rhs : Expr Float := .lit 3
    let w : Workspace Float :=
      ⟨((Graph.empty.addExpr lhs).graph.addExpr rhs).graph, #[⟨4, []⟩, ⟨5, []⟩]⟩
    let eq : EquationEntry := ⟨0, 1, [("a", 1), ("x", 1)]⟩
    let env : Env Float := fun x => if x = "a" then some 10 else none
    w.Equates eq (.between lhs rhs) ∧ ∃ v t w',
      effect (watched true false env "x" eq) w = (.ok (v, some t), w') ∧
      effect (watched false true env "x" eq) w = (.ok (v, none), w') ∧ t.steps.length = 2 ∧
      t.steps.map (·.before) ++ t.final.toList =
        (Sides.mk lhs rhs).text Number.short :: t.steps.map (·.after) := by
  intro lhs rhs w eq env
  have own : w.graph.OwnTokens := (Graph.ownTokens_empty.addExpr lhs).addExpr rhs
  have equates : w.Equates eq (.between lhs rhs) :=
    ⟨⟨own, by decide, ⟨⟨4, []⟩, rfl, rfl⟩, ⟨⟨5, []⟩, rfl, rfl⟩⟩, rfl⟩
  have finished : ((Equation.between lhs rhs).solving env "x").outcome.isOk = true := by
    decide +kernel
  have steps : ((Equation.between lhs rhs).solving env "x").steps.length = 2 := by decide +kernel
  obtain ⟨w', -, effects, solved⟩ := solve_watched equates env "x"
  cases outcome : ((Equation.between lhs rhs).solving env "x").outcome with
  | error fault =>
    rw [outcome] at finished
    cases finished
  | ok v =>
    rw [outcome] at effects
    exact ⟨equates, v, _, w', effects true false, effects false true,
      (List.length_map _).trans steps, (solved v outcome).1⟩

end Work

namespace Session

theorem effect_work {β : Type} (w : Work Float β) (s : Session) : effect (work w) s =
    ((effect w s.workspace).1, { s with workspace := (effect w s.workspace).2 }) := by
  rw [work, effect_bind (effect_get s)]
  generalize came : effect w s.workspace = result
  obtain ⟨outcome, left⟩ := result
  simp only [show w.run.run s.workspace = (outcome, left) from came]
  cases outcome <;> rfl

theorem work_pure {β : Type} (b : β) : work (pure b) = pure b := rfl

theorem work_bind {β γ : Type} (first : Work Float β) (next : β → Work Float γ) :
    work (first >>= next) = work first >>= fun b => work (next b) := by
  have same (s : Session) :
      effect (work (first >>= next)) s = effect (work first >>= fun b => work (next b)) s := by
    have started := effect_work first s
    rw [effect_work]
    cases came : effect first s.workspace with
    | mk outcome left =>
      rw [came] at started
      cases outcome with
      | ok b => rw [effect_bind came, effect_bind started, effect_work]
      | error f => rw [effect_bind_error came, effect_bind_error started]
  exact funext same

/-- In a session an equation is solved as a watched run solves it. -/
theorem perform_solve (slot target : String) (bindings : Bindings Float) (trace : Bool) :
    perform (.solve slot target bindings trace) = do
      let eq ← equation slot
      let x ← failIf (checkName target)
      let env ← failIf bindings.check
      let (v, record) ← work (Work.watched trace false env x eq)
      return match record with
        | some t => .solved v t
        | none => .value v := by
  cases trace with
  | true =>
    simp only [perform, Work.watched, Work.shown, Bool.or_false, if_true, work_bind, bind_assoc,
      work_pure, pure_bind]
  | false =>
    simp only [perform, Work.watched, Bool.or_false, Bool.false_eq_true, if_false, work_bind,
      bind_assoc, work_pure, pure_bind]

end Session

end Equate
