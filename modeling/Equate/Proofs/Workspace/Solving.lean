import Equate.Proofs.Solving.States
import Equate.Proofs.Workspace.Pairs

/-!
# Solving in place

An equation of a workspace is solved by changing the nodes of its sides, which may share them with
each other and with further expressions. Still everything goes as in `Equation.solving`, where the
sides are values: `solve_equates` shows the same outcome, the same steps, and the same sides in the
end. The workspace in the end does not depend on what is shown of the sides on the way, nor on how
operands are moved over, if that does what `moveOver` does to sides without anything left to fold
(`solveBy_solves`). Equations between formulas are solved so (`addFormulas_equates`), and so are
copies of equations (`copyEquation_equates`).
-/

namespace Equate

variable {α : Type}

/-! ### What is told of a run -/

/-- The value that a run comes to and its steps, with what is to be seen of the sides. -/
def Solving.told {σ : Type} (f : Sides α → σ) (run : Solving α) :
    Except Failure (α × List (SolveStep σ)) :=
  run.outcome.map fun v => (v, run.steps.map (SolveStep.map f))

theorem effect_bind_told {σ β : Type} {run : Solving α} {f : Sides α → σ} {w w' : Workspace α}
    {change : Work α (α × List (SolveStep σ))} (told : effect change w = (run.told f, w'))
    (next : α × List (SolveStep σ) → Work α β) :
    effect (change >>= next) w =
      match run.outcome with
      | .ok v => effect (next (v, run.steps.map (SolveStep.map f))) w'
      | .error fault => (.error fault, w') := by
  unfold Solving.told at told
  cases outcome : run.outcome with
  | ok v =>
    rw [outcome] at told
    exact effect_bind told
  | error fault =>
    rw [outcome] at told
    exact effect_bind_error told

namespace Work

variable [Arithmetic α] {w : Workspace α} {id id' : Nat} {e e' : Expr α} {env : Env α}

/-! ### Runs -/

abbrev Mover (α : Type) :=
  (unknown other : Nat) → (applied : Op) → (place : Slot) → (next operand : Nat) → Work α Unit

/-- Where an operand is to be moved over: in neither entry is anything left to fold. -/
structure Ready (env : Env α) (w : Workspace α) (id id' next operand : Nat)
    (e e' kept moving : Expr α) : Prop where
  pair : w.Pair id id' e e'
  reads : ∃ levels, w.graph.Reads levels next kept ∧ w.graph.Reads levels operand moving
  stuck : e.simplify env = e
  stuckOther : e'.simplify env = e'
  stuckNext : kept.simplify env = kept
  stuckOperand : moving.simplify env = moving

/-- Whether a mover does what `moveOver` does, wherever a run comes to. -/
def Moves (env : Env α) (move : Mover α) : Prop :=
  ∀ {w : Workspace α} {id id' next operand : Nat} {e e' kept moving : Expr α},
    Ready env w id id' next operand e e' kept moving → ∀ applied place,
      effect (move id id' applied place next operand) w =
        effect (moveOver env id id' applied place next operand) w

theorem moves_moveOver (env : Env α) : Moves env (moveOver env) := fun _ _ _ => rfl

/-- Whether a view shows of two entries what `f` tells of the sides they stand for, as long as there
is nothing left to fold. -/
def Shows {σ : Type} (env : Env α) (view : Work α σ) (side : Side) (id id' : Nat)
    (f : Sides α → σ) : Prop :=
  ∀ w e e', w.Pair id id' e e' → (Solving.arrange side e e').Stuck env →
    effect view w = (.ok (f (Solving.arrange side e e')), w)

theorem moveOver_ready {o : Origin} {op : Op} {l r : Expr α} {levels left right : Nat}
    (pair : w.Pair id id' (.node o op l r) e')
    (stuck : (Expr.node o op l r).simplify env = .node o op l r)
    (stuckOther : e'.simplify env = e') (readLeft : w.graph.Reads levels left l)
    (readRight : w.graph.Reads levels right r) (applied : Op) (place slot : Slot) :
    ∃ w', Ready env w id id' (slot.pick left right) (slot.flip.pick left right) (.node o op l r) e'
        (slot.pick l r) (slot.flip.pick l r) ∧
      effect (moveOver env id id' applied place (slot.pick left right)
        (slot.flip.pick left right)) w = (.ok (), w') ∧
      w'.Pair id id' (slot.pick l r) (Solving.moved env applied place e' (slot.flip.pick l r)) := by
  have readNext : w.graph.Reads levels (slot.pick left right) (slot.pick l r) := by
    cases slot <;> assumption
  have readOperand : w.graph.Reads levels (slot.flip.pick left right) (slot.flip.pick l r) := by
    cases slot <;> assumption
  obtain ⟨stuckNext, stuckOperand⟩ := Solving.simplify_pick stuck slot
  obtain ⟨w', moved, pair'⟩ := moveOver_pair pair readNext stuckNext readOperand applied place
  exact ⟨w', ⟨pair, ⟨levels, readNext, readOperand⟩, stuck, stuckOther, stuckNext, stuckOperand⟩,
    moved, pair'⟩

def isolateAlongBy {σ : Type} (move : Mover α) (view : Work α σ) (env : Env α) (x : String)
    (unknown other limit : Nat) (path : List Slot) (done : Nat) :
    Work α (α × List (SolveStep σ)) := do
  let here ← found ((← get).graph.node? (← root unknown))
  if here.isName x then return (← eval env other, [])
  else match path with
    | [] => throw (.expression (.notIsolated x done))
    | slot :: path =>
      if limit ≤ done then throw (.expression (.notIsolated x done))
      else match here with
        | .leaf (.operator _ op) =>
          if op.inverse?.isNone then throw (.expression (.noInverse x op))
          else throw (.misuse .childlessOperator)
        | .inner _ op l r =>
          match op.undo slot with
          | none => throw (.expression (.noInverse x op))
          | some (applied, place) => do
            let before ← view
            move unknown other applied place (slot.pick l r) (slot.flip.pick l r)
            let after ← view
            let (v, steps) ← isolateAlongBy move view env x unknown other limit path (done + 1)
            return (v, ⟨op, applied, slot, before, after⟩ :: steps)
        | _ => throw (.expression (.noParent x))
termination_by structural path

theorem isolateAlong_eq {σ : Type} (view : Work α σ) (env : Env α) (x : String)
    (unknown other limit : Nat) (path : List Slot) (done : Nat) :
    isolateAlong view env x unknown other limit path done =
      isolateAlongBy (moveOver env) view env x unknown other limit path done := by
  induction path generalizing done with
  | nil => rfl
  | cons slot path ih =>
    unfold isolateAlong isolateAlongBy
    simp only [ih]
    cases slot <;> rfl

section Along

variable {side : Side} {x : String}

/-- Work on two entries, for all that it may show of them and all ways to move an operand over. -/
abbrev Runner (α : Type) := (σ : Type) → Mover α → Work α σ → Work α (α × List (SolveStep σ))

/-- Whether work on a pair of entries comes to what a run on two sides comes to. What is shown and
how operands are moved over makes no difference to the workspace in the end. -/
structure Matches (env : Env α) (side : Side) (id id' : Nat) (run : Solving α) (w w' : Workspace α)
    (work : Runner α) : Prop where
  pair : ∃ e e', run.sides = Solving.arrange side e e' ∧ w'.Pair id id' e e'
  told : ∀ {σ : Type} {move : Mover α} {view : Work α σ} {f : Sides α → σ}, Moves env move →
    Shows env view side id id' f → effect (work σ move view) w = (run.told f, w')

theorem Matches.of_effect {run : Solving α} {w' : Workspace α} {work work' : Runner α}
    (matched : Matches env side id id' run w w' work')
    (same : ∀ σ move view, effect (work σ move view) w = effect (work' σ move view) w) :
    Matches env side id id' run w w' work :=
  ⟨matched.pair, fun moves shows => (same _ _ _).trans (matched.told moves shows)⟩

theorem matches_stop (pair : w.Pair id id' e e') (side : Side) (fault : ExprError) :
    Matches env side id id' (Solving.stop fault (Solving.arrange side e e')) w w
      fun _ _ _ => throw (.expression fault) :=
  ⟨⟨e, e', rfl, pair⟩, fun _ _ => rfl⟩

theorem matches_eval (pair : w.Pair id id' e e') (side : Side) :
    Matches env side id id' ⟨[], Solving.arrange side e e', e'.eval env⟩ w w
      fun _ _ _ => do return (← eval env id', []) := by
  refine ⟨⟨e, e', rfl, pair⟩, fun _ _ => ?_⟩
  have value : effect (eval env id') w = (e'.eval env, w) := effect_eval pair.second
  cases outcome : e'.eval env with
  | ok v =>
    rw [outcome] at value
    rw [effect_bind value]
    rfl
  | error fault =>
    rw [outcome] at value
    rw [effect_bind_error value]
    rfl

/-- A step of the run: a move between two looks at the sides, and the rest. -/
theorem Matches.step {w₁ w' : Workspace α} {next operand : Nat} {kept moving new : Expr α}
    {run : Solving α} {work : Runner α} {applied : Op} {place : Slot}
    (ready : Ready env w id id' next operand e e' kept moving)
    (moved : effect (moveOver env id id' applied place next operand) w = (.ok (), w₁))
    (pair : w₁.Pair id id' kept new) (stuckNew : new.simplify env = new)
    (rest : Matches env side id id' run w₁ w' work) (op : Op) (slot : Slot) :
    Matches env side id id'
      { run with steps := ⟨op, applied, slot, Solving.arrange side e e',
        Solving.arrange side kept new⟩ :: run.steps } w w'
      fun σ move view => do
        let before ← view
        move id id' applied place next operand
        let after ← view
        let (v, steps) ← work σ move view
        return (v, ⟨op, applied, slot, before, after⟩ :: steps) := by
  have before : (Solving.arrange side e e').Stuck env :=
    Sides.stuck_arrange.mpr ⟨ready.stuck, ready.stuckOther⟩
  have after : (Solving.arrange side kept new).Stuck env :=
    Sides.stuck_arrange.mpr ⟨ready.stuckNext, stuckNew⟩
  refine ⟨rest.pair, fun moves shows => ?_⟩
  rw [effect_bind (shows _ _ _ ready.pair before), effect_bind ((moves ready _ _).trans moved),
    effect_bind (shows _ _ _ pair after), effect_bind_told (rest.told moves shows), Solving.told]
  cases run.outcome <;> rfl

theorem isolateAlong_matches (pair : w.Pair id id' e e') (stuck : e.simplify env = e)
    (stuckOther : e'.simplify env = e') (limit : Nat) (path : List Slot) (done : Nat) :
    ∃ w', Matches env side id id' (Solving.along env x side limit path done e e') w w'
      fun _ move view => isolateAlongBy move view env x id id' limit path done := by
  -- in neither entry is anything left to fold, so that movers and views do what they are held to
  induction path generalizing w e e' done with
  | nil =>
    obtain ⟨here, n, -, -, name, start⟩ := effect_here pair.first x
    unfold Solving.along
    by_cases alone : e.isVar x = true
    · rw [if_pos alone]
      refine ⟨w, (matches_eval pair side).of_effect fun σ move view => ?_⟩
      rw [isolateAlongBy, start, name, if_pos alone]
    · rw [if_neg alone]
      refine ⟨w, (matches_stop pair side _).of_effect fun σ move view => ?_⟩
      rw [isolateAlongBy, start, name, if_neg alone]
  | cons slot path ih =>
    obtain ⟨here, n, reads, node, name, start⟩ := effect_here pair.first x
    by_cases alone : e.isVar x = true
    · unfold Solving.along
      rw [if_pos alone]
      refine ⟨w, (matches_eval pair side).of_effect fun σ move view => ?_⟩
      rw [isolateAlongBy, start, name, if_pos alone]
    by_cases early : limit ≤ done
    · unfold Solving.along
      rw [if_neg alone, if_pos early]
      refine ⟨w, (matches_stop pair side _).of_effect fun σ move view => ?_⟩
      rw [isolateAlongBy, start, name, if_neg alone]
      exact congrArg (effect · w) (if_pos early)
    rcases reads.cases with ⟨t, same, leaf, rfl⟩ |
      ⟨o, op, l, r, left, right, rfl, same, readLeft, readRight⟩
    · obtain rfl := Option.some.inj (node.symm.trans same)
      unfold Solving.along
      rw [if_neg alone, if_neg early]
      cases e with
      | node => cases leaf
      | _ =>
        refine ⟨w, (matches_stop pair side _).of_effect fun σ move view => ?_⟩
        rw [isolateAlongBy, start, name, if_neg alone]
        exact congrArg (effect · w) (if_neg early)
    · obtain rfl := Option.some.inj (node.symm.trans same)
      cases undone : op.undo slot with
      | none =>
        rw [Solving.along_blocked early x undone]
        refine ⟨w, (matches_stop pair side _).of_effect fun σ move view => ?_⟩
        rw [isolateAlongBy, start, name, if_neg alone]
        simp only [if_neg early, undone]
      | some result =>
        obtain ⟨applied, place⟩ := result
        obtain ⟨w₁, ready, moved, pair₁⟩ :=
          moveOver_ready pair stuck stuckOther readLeft readRight applied place slot
        have stuckNew := Solving.simplify_moved stuckOther ready.stuckOperand applied place
        obtain ⟨w', rest⟩ := ih pair₁ ready.stuckNext stuckNew (done + 1)
        rw [Solving.along_step early x undone]
        have matched := Matches.step ready moved pair₁ stuckNew rest op slot
        refine ⟨w', matched.of_effect fun σ move view => ?_⟩
        rw [isolateAlongBy, start, name, if_neg alone]
        simp only [if_neg early, undone]

end Along

/-- Whether a view of a workspace shows of an equation what `f` tells of its sides. -/
def Sees {σ : Type} (view : Work α σ) (eq : EquationEntry) (f : Sides α → σ) : Prop :=
  ∀ w l r, w.Pair eq.lhs eq.rhs l r → effect view w = (.ok (f ⟨l, r⟩), w)

omit [Arithmetic α] in
theorem sees_sides (eq : EquationEntry) :
    Sees (sides eq) eq fun s : Sides α => (s.lhs.toTree, s.rhs.toTree) := by
  intro w l r pair
  rw [sides, effect_bind (effect_tree pair.first), effect_bind (effect_tree pair.second)]
  rfl

omit [Arithmetic α] in
theorem sees_nothing (eq : EquationEntry) : Sees (pure () : Work α Unit) eq fun _ => () :=
  fun _ _ _ _ => rfl

theorem Sees.shows {σ : Type} {view : Work α σ} {eq : EquationEntry} {f : Sides α → σ}
    (sees : Sees view eq f) (env : Env α) : Shows env view .left eq.lhs eq.rhs f :=
  fun w l r pair _ => sees w l r pair

end Work

/-- Whether an equation of a workspace, between different entries, is the given one. -/
structure Workspace.Equates (w : Workspace α) (eq : EquationEntry) (e : Equation α) : Prop where
  pair : w.Pair eq.lhs eq.rhs e.sides.lhs e.sides.rhs
  counted : eq.occurrences = e.occurrences

namespace Work

variable {w : Workspace α}

theorem newEquation_equates {lhs rhs : Nat} {l r : Expr α} (pair : w.Pair lhs rhs l r) :
    ∃ eq, effect (newEquation lhs rhs) w = (.ok eq, w) ∧ w.Equates eq (.between l r) := by
  refine ⟨⟨lhs, rhs, (Equation.between l r).occurrences⟩, ?_, pair, rfl⟩
  rw [newEquation, effect_bind (effect_rpn pair.first), effect_bind (effect_rpn pair.second)]
  rfl

/-- Two formulas that are read or made one after the other get an equation between them. -/
theorem addFormulas_equates (own : w.graph.OwnTokens) (f g : Formula α) :
    ∃ w' eq, effect (do newEquation (← addFormula f) (← addFormula g)) w = (.ok eq, w') ∧
      w'.Equates eq (.between f.expr g.expr) := by
  obtain ⟨w₁, first, gains₁⟩ := addFormula_gains own f
  obtain ⟨w₂, second, gains₂⟩ := addFormula_gains gains₁.own g
  obtain ⟨apart, still⟩ := gains₂.kept _ _ gains₁.holds
  obtain ⟨eq, formed, equates⟩ :=
    newEquation_equates ⟨gains₂.own, apart, still, gains₂.holds⟩
  refine ⟨w₂, eq, ?_, equates⟩
  rw [effect_bind first, effect_bind second, formed]

/-- A copy has the same sides, and counts what is left of the variables. -/
theorem copyEquation_equates {eq : EquationEntry} {e : Equation α} (equates : w.Equates eq e) :
    ∃ w' new, effect (copyEquation eq) w = (.ok new, w') ∧
      w'.Equates new (.between e.sides.lhs e.sides.rhs) ∧ w'.Equates eq e := by
  obtain ⟨⟨own, apart, lhs, rhs⟩, counted⟩ := equates
  obtain ⟨w₁, first, gains₁⟩ := copy_gains own lhs
  have kept₁ (id : Nat) (e : Expr α) (holds : w.Holds id e) := (gains₁.kept id e holds).2
  obtain ⟨w₂, second, gains₂⟩ := copy_gains gains₁.own (kept₁ _ _ rhs)
  have kept₂ (id : Nat) (e : Expr α) (holds : w₁.Holds id e) := (gains₂.kept id e holds).2
  obtain ⟨apart', still⟩ := gains₂.kept _ _ gains₁.holds
  obtain ⟨new, formed, equates⟩ :=
    newEquation_equates ⟨gains₂.own, apart', still, gains₂.holds⟩
  refine ⟨w₂, new, ?_, equates, ⟨gains₂.own, apart, kept₂ _ _ (kept₁ _ _ lhs),
    kept₂ _ _ (kept₁ _ _ rhs)⟩, counted⟩
  rw [copyEquation, effect_bind first, effect_bind second, formed]

variable [Arithmetic α] {eq : EquationEntry} {e : Equation α} {env : Env α} {x : String}

/-- Whether work on an equation comes to what a run comes to, as `Matches` says of two entries. -/
structure Solves (env : Env α) (eq : EquationEntry) (run : Solving α) (w w' : Workspace α)
    (work : Runner α) : Prop where
  equates : w'.Equates eq ⟨run.sides, eq.occurrences⟩
  told : ∀ {σ : Type} {move : Mover α} {view : Work α σ} {f : Sides α → σ}, Moves env move →
    Shows env view .left eq.lhs eq.rhs f → effect (work σ move view) w = (run.told f, w')

section Solves

variable {run : Solving α} {w' : Workspace α} {work work' : Runner α}

theorem Solves.of_effect {v : Workspace α} (solves : Solves env eq run v w' work')
    (same : ∀ σ move view, effect (work σ move view) w = effect (work' σ move view) v) :
    Solves env eq run w w' work :=
  ⟨solves.equates, fun moves shows => (same _ _ _).trans (solves.told moves shows)⟩

theorem Matches.solves_left (matched : Matches env .left eq.lhs eq.rhs run w w' work) :
    Solves env eq run w w' work := by
  obtain ⟨l, r, sides, pair⟩ := matched.pair
  refine ⟨⟨?_, rfl⟩, fun moves shows => matched.told moves shows⟩
  rw [sides]
  exact pair

theorem Matches.solves_right (matched : Matches env .right eq.rhs eq.lhs run w w' work) :
    Solves env eq run w w' work := by
  obtain ⟨r, l, sides, pair⟩ := matched.pair
  refine ⟨⟨?_, rfl⟩, fun moves shows =>
    matched.told moves fun w r l pair stuck => shows w l r pair.symm stuck⟩
  rw [sides]
  exact pair.symm

end Solves

/-- What is left of solving once both sides are simplified, with the trees that they have then. -/
def isolateBy {σ : Type} (move : Mover α) (view : Work α σ) (env : Env α) (x : String)
    (eq : EquationEntry) (l r : Tree (Token α)) : Work α (α × List (SolveStep σ)) :=
  match pathTo? x l, pathTo? x r with
  | some (slot :: path), _ => isolateAlongBy move view env x eq.lhs eq.rhs l.depth (slot :: path) 0
  | _, some (slot :: path) => isolateAlongBy move view env x eq.rhs eq.lhs r.depth (slot :: path) 0
  | some [], _ => return (← eval env eq.rhs, [])
  | _, some [] => return (← eval env eq.lhs, [])
  | none, none => throw (.expression (.notFound x))

theorem isolateBy_solves (env : Env α) (x : String) {l r : Expr α}
    (pair : w.Pair eq.lhs eq.rhs (l.simplify env) (r.simplify env)) :
    ∃ w', Solves env eq (Solving.isolate env x ⟨l, r⟩) w w' fun _ move view =>
      isolateBy move view env x eq (l.simplify env).toTree (r.simplify env).toTree := by
  obtain ⟨stuckLeft, stuckRight⟩ := (Sides.mk l r).stuck_simplify env
  simp only [Sides.simplify] at stuckLeft stuckRight
  unfold isolateBy Solving.isolate
  simp only [Expr.pathTo?_toTree, Expr.depth_toTree]
  generalize l.simplify env = l at pair stuckLeft ⊢
  generalize r.simplify env = r at pair stuckRight ⊢
  cases left : l.pathTo? x with
  | none =>
    cases right : r.pathTo? x with
    | none => exact ⟨w, (matches_stop pair .left _).solves_left⟩
    | some path =>
      cases path with
      | nil => exact ⟨w, (matches_eval pair.symm .right).solves_right⟩
      | cons slot path =>
        obtain ⟨w', matched⟩ :=
          isolateAlong_matches pair.symm stuckRight stuckLeft r.depth (slot :: path) 0
        exact ⟨w', matched.solves_right⟩
  | some path =>
    cases path with
    | cons slot path =>
      obtain ⟨w', matched⟩ :=
        isolateAlong_matches pair stuckLeft stuckRight l.depth (slot :: path) 0
      exact ⟨w', matched.solves_left⟩
    | nil =>
      cases right : r.pathTo? x with
      | none => exact ⟨w, (matches_eval pair .left).solves_left⟩
      | some path =>
        cases path with
        | nil => exact ⟨w, (matches_eval pair .left).solves_left⟩
        | cons slot path =>
          obtain ⟨w', matched⟩ :=
            isolateAlong_matches pair.symm stuckRight stuckLeft r.depth (slot :: path) 0
          exact ⟨w', matched.solves_right⟩

def solveBy {σ : Type} (move : Mover α) (view : Work α σ) (env : Env α) (x : String)
    (eq : EquationEntry) : Work α (α × List (SolveStep σ)) := do
  match Equation.checkTarget env x eq.occurrences with
  | .error e => throw (.expression e)
  | .ok () => pure ()
  simplify env eq.lhs
  simplify env eq.rhs
  let (l, r) ← sides eq
  isolateBy move view env x eq l r

theorem solve_eq {σ : Type} (view : Work α σ) (env : Env α) (x : String) (eq : EquationEntry) :
    solve view env x eq = solveBy (moveOver env) view env x eq := by
  have loops : isolateAlong view env x = isolateAlongBy (moveOver env) view env x := by
    funext unknown other limit path done
    exact isolateAlong_eq view env x unknown other limit path done
  rw [solve, loops]
  rfl

/-- Solving in place leaves one and the same workspace, whatever is shown of the sides and however
operands are moved over. -/
theorem solveBy_solves (equates : w.Equates eq e) (env : Env α) (x : String) :
    ∃ w', Solves env eq (e.solving env x) w w' fun _ move view => solveBy move view env x eq := by
  obtain ⟨⟨l, r⟩, occurrences⟩ := e
  obtain ⟨pair, counted⟩ := equates
  obtain rfl : eq.occurrences = occurrences := counted
  cases checked : Equation.checkTarget env x eq.occurrences with
  | error fault =>
    rw [(Equation.solve_of_refused ⟨⟨l, r⟩, eq.occurrences⟩ checked).1]
    refine ⟨w, ⟨pair, rfl⟩, fun _ _ => ?_⟩
    rw [solveBy, checked]
    rfl
  | ok _ =>
    rw [(Equation.solve_of_accepted ⟨l, r⟩ checked).1]
    obtain ⟨w₁, w₂, first, second, pair'⟩ := simplify_both pair env
    obtain ⟨w', solves⟩ := isolateBy_solves env x pair'
    have trees := sees_sides eq w₂ _ _ pair'
    refine ⟨w', solves.of_effect fun σ move view => ?_⟩
    rw [solveBy, checked]
    exact (effect_bind first).trans ((effect_bind second).trans (effect_bind trees))

/-- Solving in place goes as solving does: the outcome is the same and so are the steps, with what
a view shows of the sides, and the equation is left with the same sides. -/
theorem solve_equates (equates : w.Equates eq e) {σ : Type} {view : Work α σ} {f : Sides α → σ}
    (sees : Sees view eq f) (env : Env α) (x : String) :
    ∃ w', effect (solve view env x eq) w = ((e.solving env x).told f, w') ∧
      w'.Equates eq (e.solve env x).1 := by
  obtain ⟨w', solves⟩ := solveBy_solves equates env x
  refine ⟨w', ?_, solves.equates.pair, equates.counted⟩
  rw [solve_eq]
  exact solves.told (moves_moveOver env) (sees.shows env)

end Work

end Equate
