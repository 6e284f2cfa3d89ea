import Equate.Proofs.Solving.Course

/-!
# The equations that solving passes through

Every fold and every operator moved leaves an equation behind. `stages` lists those of one run,
`history` those of several runs on one equation. `solving_trail`: each follows from the one before
by a single step, and the last is the equation that the run leaves.
-/

namespace Equate

/-! ### Trails -/

/-- From `s` to `u` by steps of `R`, with what every step leads to. -/
inductive Trail {σ : Type} (R : σ → σ → Prop) : σ → List σ → σ → Prop where
  | nil (s : σ) : Trail R s [] s
  | cons {s t u : σ} {ts : List σ} (step : R s t) (rest : Trail R t ts u) : Trail R s (t :: ts) u

namespace Trail

variable {σ τ : Type} {R : σ → σ → Prop} {s t u : σ} {ts us : List σ}

theorem append (first : Trail R s ts t) (second : Trail R t us u) : Trail R s (ts ++ us) u := by
  induction first with
  | nil s => exact second
  | cons step rest ih => exact .cons step (ih second)

theorem map {R' : τ → τ → Prop} (f : σ → τ) (keeps : ∀ s t, R s t → R' (f s) (f t))
    (trail : Trail R s ts t) : Trail R' (f s) (ts.map f) (f t) := by
  induction trail with
  | nil s => exact .nil (f s)
  | cons step rest ih => exact .cons (keeps _ _ step) ih

theorem last_mem (trail : Trail R s ts t) : t = s ∨ t ∈ ts := by
  induction trail with
  | nil s => exact Or.inl rfl
  | cons step rest ih =>
    rcases ih with rfl | member
    · exact Or.inr List.mem_cons_self
    · exact Or.inr (List.mem_cons_of_mem _ member)

end Trail

variable {α : Type} [Arithmetic α]

/-! ### Folds one by one -/

/-- The expressions that folding passes through, one for every operation that it replaces. -/
def Expr.foldings (env : Env α) : Expr α → List (Expr α)
  | node o op l r =>
    (l.foldings env).map (fun l' => node o op l' r) ++
      (r.foldings env).map (fun r' => node o op (l.simplify env) r') ++
      ((node o op (l.simplify env) (r.simplify env)).foldRoot? env).toList
  | _ => []

def Expr.FoldsTo (env : Env α) (e e' : Expr α) : Prop := ∃ path, e.foldAt? env path = some e'

theorem Expr.foldings_trail (env : Env α) (e : Expr α) :
    Trail (FoldsTo env) e (e.foldings env) (e.simplify env) := by
  induction e with
  | lit v => exact .nil _
  | var x => exact .nil _
  | node o op l r ihl ihr =>
    have left : Trail (FoldsTo env) _ _ _ := ihl.map (fun l' => node o op l' r)
      fun e e' ⟨path, folded⟩ => ⟨.left :: path, by simp [foldAt?, folded]⟩
    have right : Trail (FoldsTo env) _ _ _ := ihr.map (fun r' => node o op (l.simplify env) r')
      fun e e' ⟨path, folded⟩ => ⟨.right :: path, by simp [foldAt?, folded]⟩
    -- the root is folded last, when its operands are
    refine (left.append right).append ?_
    rw [simplify_node, foldRoot]
    cases folded : (node o op (l.simplify env) (r.simplify env)).foldRoot? env with
    | none => exact .nil _
    | some e' => exact .cons ⟨[], folded⟩ (.nil _)

/-! ### Steps on equations -/

/-- One step of a run: a fold on a side, or an operator moved from the unknown's side, which keeps
an operand, to the other. -/
inductive Sides.Step (env : Env α) : Sides α → Sides α → Prop where
  | foldLeft {l l' : Expr α} (r : Expr α) (folds : l.FoldsTo env l') : Step env ⟨l, r⟩ ⟨l', r⟩
  | foldRight {r r' : Expr α} (l : Expr α) (folds : r.FoldsTo env r') : Step env ⟨l, r⟩ ⟨l, r'⟩
  | move {o : Origin} {op applied : Op} {l r : Expr α} {slot place : Slot} (side : Side)
      (other : Expr α) (undone : op.undo slot = some (applied, place)) :
      Step env (Solving.arrange side (.node o op l r) other)
        (Solving.arrange side (slot.pick l r)
          (Solving.moved env applied place other (slot.flip.pick l r)))

theorem Solving.Course.trail {env : Env α} {x : String} {side : Side} {path : List Slot}
    {unknown other : Expr α} {run : Solving α}
    (course : Course env x side path unknown other run) :
    Trail (Sides.Step env) (arrange side unknown other) (run.steps.map (·.after)) run.sides := by
  induction course with
  | alone other => exact .nil _
  | blocked leads lasting => exact .nil _
  | step leads undone rest ih => exact .cons (.move side _ undone) ih

/-! ### Runs -/

namespace Equation

def stages (env : Env α) (x : String) (eq : Equation α) : List (Sides α) :=
  match checkTarget env x eq.occurrences with
  | .error _ => []
  | .ok () =>
    (eq.sides.lhs.foldings env).map (fun l => ⟨l, eq.sides.rhs⟩) ++
      (eq.sides.rhs.foldings env).map (fun r => ⟨eq.sides.lhs.simplify env, r⟩) ++
      (eq.solving env x).steps.map (·.after)

theorem solving_trail (env : Env α) (x : String) (eq : Equation α) :
    Trail (Sides.Step env) eq.sides (eq.stages env x) (eq.solving env x).sides := by
  obtain ⟨⟨lhs, rhs⟩, occurrences⟩ := eq
  unfold stages solving
  cases checkTarget env x occurrences with
  | error fault => exact .nil _
  | ok _ =>
    have left : Trail (Sides.Step env) _ _ _ := (lhs.foldings_trail env).map (fun l => ⟨l, rhs⟩)
      fun l l' folds => .foldLeft rhs folds
    have right : Trail (Sides.Step env) _ _ _ :=
      (rhs.foldings_trail env).map (fun r => ⟨lhs.simplify env, r⟩)
        fun r r' folds => .foldRight (lhs.simplify env) folds
    refine (left.append right).append ?_
    rcases Solving.isolate_course env x lhs rhs with ⟨-, -, failed⟩ | course
    · simp only [failed]
      exact .nil _
    · obtain ⟨side, path, unknown, other, -, arranged, course⟩ := course
      have trail := course.trail
      rwa [arranged] at trail

end Equation

/-! ### Several runs on one equation -/

structure Call (α : Type) where
  env : Env α
  target : String

namespace Equation

def solveAll : List (Call α) → Equation α → Equation α
  | [], eq => eq
  | call :: calls, eq => solveAll calls (eq.solve call.env call.target).1

def answers : List (Call α) → Equation α → List (String × Except Failure α)
  | [], _ => []
  | call :: calls, eq =>
    (call.target, (eq.solve call.env call.target).2) ::
      answers calls (eq.solve call.env call.target).1

def history : List (Call α) → Equation α → List (Sides α)
  | [], _ => []
  | call :: calls, eq =>
    eq.stages call.env call.target ++ history calls (eq.solve call.env call.target).1

end Equation

end Equate
