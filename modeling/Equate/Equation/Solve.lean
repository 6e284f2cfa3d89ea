import Equate.Equation

/-!
# Solving

An equation is solved for a variable that occurs once by taking the operators off the side where
it stands, from the root down, and applying their inverses to the other side. What is left beside
the variable is then evaluated.

A `Solving` is the whole course of a run: it tells how every step changed the sides, how they were
left, and what came out. A run that fails leaves the sides as its last step did.
-/

namespace Equate

inductive Side where
  | left | right
  deriving DecidableEq

/-- One operator taken off the unknown's side: `undone` from the side, `applied` to the other.
The two sides before and after it are kept as values of `σ`. -/
structure SolveStep (σ : Type) where
  undone : Op
  applied : Op
  slot : Slot
  before : σ
  after : σ

structure Solving (α : Type) where
  steps : List (SolveStep (Sides α))
  sides : Sides α
  outcome : Except Failure α

namespace Solving

variable {α : Type}

def arrange (side : Side) (unknown other : Expr α) : Sides α :=
  match side with
  | .left => ⟨unknown, other⟩
  | .right => ⟨other, unknown⟩

def stop (e : ExprError) (sides : Sides α) : Solving α := ⟨[], sides, .error (.expression e)⟩

def wrap (op : Op) (slot : Slot) (e operand : Expr α) : Expr α :=
  match slot with
  | .left => .node .introduced op e operand
  | .right => .node .introduced op operand e

variable [Arithmetic α]

/-- Takes operators off `unknown` along the path to the variable `x`. `done` steps came before;
there may be no more than `limit`. -/
def along (env : Env α) (x : String) (side : Side) (limit : Nat) :
    (path : List Slot) → (done : Nat) → (unknown other : Expr α) → Solving α
  | [], done, unknown, other =>
    let sides := arrange side unknown other
    if unknown.isVar x then ⟨[], sides, other.eval env⟩ else stop (.notIsolated x done) sides
  | slot :: path, done, unknown, other =>
    let sides := arrange side unknown other
    if unknown.isVar x then ⟨[], sides, other.eval env⟩
    else if limit ≤ done then stop (.notIsolated x done) sides
    else match unknown with
      | .node _ op l r =>
        match op.undo slot with
        | none => stop (.noInverse x op) sides
        | some (applied, place) =>
          let (next, operand) := match slot with
            | .left => (l, r)
            | .right => (r, l)
          let other := (wrap applied place other operand).foldRoot env
          let rest := along env x side limit path (done + 1) next other
          let step := ⟨op, applied, slot, sides, arrange side next other⟩
          { rest with steps := step :: rest.steps }
      | _ => stop (.noParent x) sides

/-- Takes all operators off the side of `x`, after both sides are simplified. A variable that
stands alone on one side leaves nothing to do. -/
def isolate (env : Env α) (x : String) (sides : Sides α) : Solving α :=
  let l := sides.lhs.simplify env
  let r := sides.rhs.simplify env
  match l.pathTo? x, r.pathTo? x with
  | some (slot :: path), _ => along env x .left l.depth (slot :: path) 0 l r
  | _, some (slot :: path) => along env x .right r.depth (slot :: path) 0 r l
  | some [], _ => ⟨[], ⟨l, r⟩, r.eval env⟩
  | _, some [] => ⟨[], ⟨l, r⟩, l.eval env⟩
  | none, none => stop (.notFound x) ⟨l, r⟩

end Solving

namespace Equation

variable {α : Type}

/-- Whether an equation with the given occurrences may be solved for `x`, which must have no value
and occur exactly once. -/
def checkTarget (env : Env α) (x : String) (occurrences : List (String × Nat)) :
    Except ExprError Unit :=
  if (env x).isSome then .error (.alreadyBound x)
  else match occurrences.lookup x with
    | none => .error (.absent x)
    | some n => if n = 1 then .ok () else .error (.repeated x n)

/-- The course of solving for `x`. A target that is refused leaves the equation untouched. -/
def solving [Arithmetic α] (env : Env α) (x : String) (eq : Equation α) : Solving α :=
  match checkTarget env x eq.occurrences with
  | .error e => Solving.stop e eq.sides
  | .ok () => Solving.isolate env x eq.sides

def solve [Arithmetic α] (env : Env α) (x : String) (eq : Equation α) :
    Equation α × Except Failure α :=
  let run := eq.solving env x
  ({ eq with sides := run.sides }, run.outcome)

end Equation

end Equate
