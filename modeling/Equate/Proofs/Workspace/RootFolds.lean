import Equate.Proofs.Workspace.Solving

/-!
# Folding the root is enough

When an operator is moved over, solving folds the new root of the other side and no node below it.
`solve_thoroughly`: were both sides folded in full at every step instead, nothing would change, not
even a node of the graph. Both were folded when the run began, whatever earlier calls left of them,
and moving operators leaves nothing else to fold.
-/

namespace Equate

variable {α : Type} [Arithmetic α] {env : Env α}

/-! ### Where nothing is left to fold -/

namespace Edit

variable {g g' : Graph α} {levels id : Nat} {e : Expr α}

theorem foldNode_of_answer (answer : (effect (foldNode env id) g).1 = .ok false) :
    effect (foldNode env id) g = (.ok false, g) := by
  rw [foldNode, effect_bind (effect_get g)] at answer ⊢
  revert answer
  repeat' split
  all_goals intro answer
  all_goals first
    | rfl
    | cases answer

theorem foldNode_stuck (reads : g.Reads levels id e) (stuck : e.simplify env = e) :
    effect (foldNode env id) g = (.ok false, g) := by
  have none_left : e.foldRoot? env = none := Expr.stuck_iff.mpr stuck []
  apply foldNode_of_answer
  rw [foldNode_answer reads, none_left]
  rfl

theorem simplifyWithin_inner {o : Origin} {op : Op} {left right : Nat} {b : Bool}
    (found : g.node? id = some (.inner o op left right))
    (doneLeft : effect (simplifyWithin env levels left) g = (.ok (), g))
    (doneRight : effect (simplifyWithin env levels right) g = (.ok (), g))
    (folds : effect (foldNode env id) g = (.ok b, g')) :
    effect (simplifyWithin env (levels + 1) id) g = (.ok (), g') := by
  have below : g.operands? id = some (left, right) := Graph.operands?_of_node? found
  rw [simplifyWithin, effect_bind (effect_get g), below]
  exact (effect_bind doneLeft).trans ((effect_bind doneRight).trans (effect_bind folds))

theorem simplifyWithin_stuck (reads : g.Reads levels id e) (stuck : e.simplify env = e) :
    effect (simplifyWithin env levels id) g = (.ok (), g) := by
  induction levels generalizing id e with
  | zero => cases reads
  | succ levels ih =>
    have root := foldNode_stuck reads stuck
    rcases reads.cases with ⟨t, found, -, -⟩ |
      ⟨o, op, l, r, left, right, rfl, found, readLeft, readRight⟩
    · have below : g.operands? id = none := Graph.operands?_of_node? found
      rw [simplifyWithin, effect_bind (effect_get g), below]
      exact effect_bind root
    · obtain ⟨stuckLeft, stuckRight⟩ := Expr.simplify_operands stuck
      exact simplifyWithin_inner found (ih readLeft stuckLeft) (ih readRight stuckRight) root

/-- Where only the root may be left to fold, folding all nodes is folding the root. -/
theorem simplifyWithin_root {o : Origin} {op : Op} {l r : Expr α} {b : Bool}
    (reads : g.Reads (levels + 1) id (.node o op l r)) (stuckLeft : l.simplify env = l)
    (stuckRight : r.simplify env = r) (folds : effect (foldNode env id) g = (.ok b, g')) :
    effect (simplifyWithin env (levels + 1) id) g = (.ok (), g') := by
  rcases reads.cases with ⟨t, found, leaf, -⟩ | ⟨_, _, _, _, _, _, same, found, left, right⟩
  · cases leaf
  · cases same
    exact simplifyWithin_inner found (simplifyWithin_stuck left stuckLeft)
      (simplifyWithin_stuck right stuckRight) folds

end Edit

namespace Work

variable {w : Workspace α} {id : Nat} {e : Expr α}

theorem effect_simplify_of_edit {entry : Entry α} {g : Graph α}
    (found : w.entries[id]? = some entry)
    (done : effect (Edit.simplifyWithin env (entry.root + 1) entry.root) w.graph = (.ok (), g)) :
    effect (simplify env id) w = (.ok (), { w with graph := g }) := by
  rw [simplify, effect_bind (effect_root found), Edit.simplify_eq]
  exact effect_edit done

theorem simplify_stuck (holds : w.Holds id e) (stuck : e.simplify env = e) :
    effect (simplify env id) w = (.ok (), w) := by
  obtain ⟨entry, found, read⟩ := holds
  exact effect_simplify_of_edit found (Edit.simplifyWithin_stuck read stuck)

/-! ### Folding in full at every step -/

/-- Moves an operand over as `moveOver` does, but folds all nodes of both entries. -/
def moveOverThoroughly (env : Env α) : Mover α := fun unknown other applied place next operand => do
  introduce other applied place operand
  simplify env other
  simplify env unknown
  setRoot unknown next

theorem moves_thoroughly (env : Env α) : Moves env (moveOverThoroughly env) := by
  intro w id id' next operand e e' kept moving ready applied place
  obtain ⟨levels, -, readOperand⟩ := ready.reads
  obtain ⟨w₁, added, ⟨own, -, ⟨entry, found, read⟩, ⟨entry', found', read'⟩⟩, -⟩ :=
    introduce_pair ready.pair readOperand applied place
  obtain ⟨b, g, folds, -, folded⟩ := Edit.foldNode_reads own env read'
  have other : effect (simplify env id') w₁ = (.ok (), { w₁ with graph := g }) := by
    apply effect_simplify_of_edit found'
    cases place with
    | left => exact Edit.simplifyWithin_root read' ready.stuckOther ready.stuckOperand folds
    | right => exact Edit.simplifyWithin_root read' ready.stuckOperand ready.stuckOther folds
  -- what the fold did to shared nodes leaves the unknown's side as it was
  obtain ⟨e₁, read₁, partly⟩ := folded.exprs _ _ _ read
  rw [← ready.stuck] at partly
  obtain rfl : e₁ = e := partly.eq_of_simplify.trans ready.stuck
  have held : Workspace.Holds { w₁ with graph := g } id e₁ := ⟨entry, found, read₁⟩
  have unknown := simplify_stuck held ready.stuck
  rw [moveOverThoroughly, effect_bind added, effect_bind other, effect_bind unknown, moveOver,
    effect_bind added, effect_bind (effect_root found'), effect_bind (effect_edit folds)]

/-! ### Equations -/

variable {σ : Type} {eq : EquationEntry} {view : Work α σ} {f : Sides α → σ}

def simplifiedView (env : Env α) (eq : EquationEntry) (view : Work α σ) : Work α σ := do
  simplify env eq.lhs
  simplify env eq.rhs
  view

theorem shows_simplifiedView (sees : Sees view eq f) (env : Env α) :
    Shows env (simplifiedView env eq view) .left eq.lhs eq.rhs f := by
  intro w l r pair stuck
  rw [simplifiedView, effect_bind (simplify_stuck pair.first stuck.left),
    effect_bind (simplify_stuck pair.second stuck.right)]
  exact sees w l r pair

/-- Solving does the same if both sides are folded in full whenever an operand is moved over, and if
that is done before and after every step. In all states of a run, folding either side changes
nothing. -/
theorem solve_thoroughly {e : Equation α} (equates : w.Equates eq e) (sees : Sees view eq f)
    (env : Env α) (x : String) :
    effect (solveBy (moveOverThoroughly env) view env x eq) w = effect (solve view env x eq) w ∧
      effect (solve (simplifiedView env eq view) env x eq) w = effect (solve view env x eq) w ∧
      ∃ w', effect (solve view env x eq) w = ((e.solving env x).told f, w') ∧
        w'.Equates eq ⟨(e.solving env x).sides, eq.occurrences⟩ ∧
        (Equation.checkTarget env x eq.occurrences = .ok () →
          ∀ t ∈ (e.solving env x).states, ∀ v : Workspace α, v.Equates eq ⟨t, eq.occurrences⟩ →
            effect (simplify env eq.lhs) v = (.ok (), v) ∧
            effect (simplify env eq.rhs) v = (.ok (), v)) := by
  obtain ⟨w', solves⟩ := solveBy_solves equates env x
  have plain := solves.told (moves_moveOver env) (sees.shows env)
  have thorough := solves.told (moves_thoroughly env) (sees.shows env)
  have simplified := solves.told (moves_moveOver env) (shows_simplifiedView sees env)
  rw [← solve_eq] at plain simplified
  refine ⟨thorough.trans plain.symm, simplified.trans plain.symm, w', plain, solves.equates, ?_⟩
  intro accepted t member v holds
  rw [equates.counted] at accepted
  rw [(Equation.solve_of_accepted e.sides accepted).1] at member
  have stuck := (Solving.isolate_states env x e.sides).2 t member
  exact ⟨simplify_stuck holds.pair.first stuck.left, simplify_stuck holds.pair.second stuck.right⟩

/-- `(a + 1) * (a - x) = y` with a value for `a` alone: the sum is folded at the start, the other
`a` and the new operations never, and the run ends for want of `y`. -/
theorem solve_thoroughly_without_value :
    let lhs : Expr Float := .node .parsed .mul (.node .parsed .add (.var "a") (.lit 1))
      (.node .parsed .sub (.var "a") (.var "x"))
    let rhs : Expr Float := .var "y"
    let w : Workspace Float :=
      ⟨((Graph.empty.addExpr lhs).graph.addExpr rhs).graph, #[⟨6, []⟩, ⟨7, []⟩]⟩
    let eq : EquationEntry := ⟨0, 1, [("a", 2), ("x", 1), ("y", 1)]⟩
    let env : Env Float := fun z => if z = "a" then some 2 else none
    w.Equates eq (.between lhs rhs) ∧ Equation.checkTarget env "x" eq.occurrences = .ok () ∧
      effect (solveBy (moveOverThoroughly env) (sides eq) env "x" eq) w =
        effect (solve (sides eq) env "x" eq) w ∧
      ((effect (solve (sides eq) env "x" eq) w).1.map Prod.fst).isOk = false ∧
      ∃ w', (effect (solve (sides eq) env "x" eq) w).2 = w' ∧
        effect (simplify env eq.lhs) w' = (.ok (), w') ∧
        effect (simplify env eq.rhs) w' = (.ok (), w') := by
  intro lhs rhs w eq env
  have own : w.graph.OwnTokens := (Graph.ownTokens_empty.addExpr lhs).addExpr rhs
  have equates : w.Equates eq (.between lhs rhs) :=
    ⟨⟨own, by decide, ⟨⟨6, []⟩, rfl, rfl⟩, ⟨⟨7, []⟩, rfl, rfl⟩⟩, rfl⟩
  have accepted : Equation.checkTarget env "x" eq.occurrences = .ok () := rfl
  have failed : ((effect (solve (sides eq) env "x" eq) w).1.map Prod.fst).isOk = false := by
    decide +kernel
  obtain ⟨same, -, w', told, left, stuck⟩ := solve_thoroughly equates (sees_sides eq) env "x"
  have final := stuck accepted _ (List.mem_append_right _ (List.mem_singleton_self _)) w' left
  exact ⟨equates, accepted, same, failed, w', by rw [told], final⟩

end Work

end Equate
