import Equate.Formula

/-!
# Equations

Two expressions that are to be equal, with the number of occurrences of every variable as it was
when the equation was formed. Solving changes the sides and leaves these counts alone.
-/

namespace Equate

structure Sides (α : Type) where
  lhs : Expr α
  rhs : Expr α

namespace Sides

variable {α : Type}

def text (lit : α → String) (s : Sides α) : String :=
  s.lhs.infixText lit ++ " = " ++ s.rhs.infixText lit

/-- The variables of both sides, with repetitions, those of the left side first. -/
def names (s : Sides α) : List String := Rpn.names s.lhs.toRpn ++ Rpn.names s.rhs.toRpn

def swap (s : Sides α) : Sides α := ⟨s.rhs, s.lhs⟩

end Sides

/-- Two sides and how often each variable occurred when they were put together. -/
structure Equation (α : Type) where
  sides : Sides α
  occurrences : List (String × Nat)

/-- The texts on the two sides of the only `=` of a text. -/
def cutAtEquals (text : String) : Except ExprError (String × String) :=
  let cs := text.toList
  match cs.dropWhile (· != '=') with
  | [] => .error (.notOneEquals text)
  | _ :: rest =>
    if rest.contains '=' then .error (.notOneEquals text)
    else .ok (String.ofList (cs.takeWhile (· != '=')), String.ofList rest)

/-- Whether two doubles differ by no more than a part `rel` of the larger one, or by no more than
`abs`. Infinities are close to themselves only. -/
def isClose (rel abs a b : Float) : Except Misuse Bool :=
  if rel < 0.0 || abs < 0.0 then .error .negativeTolerance
  else if a == b then .ok true
  else if a.isInf || b.isInf then .ok false
  else
    let apart := (b - a).abs
    .ok (apart ≤ (rel * b).abs || apart ≤ (rel * a).abs || apart ≤ abs)

namespace Equation

variable {α : Type}

def between (lhs rhs : Expr α) : Equation α :=
  let sides : Sides α := ⟨lhs, rhs⟩
  { sides, occurrences := tally sides.names }

def parseSides [OfScientific α] (lhs rhs : String) : Except ExprError (Equation α) := do
  let l ← Formula.parse lhs
  let r ← Formula.parse rhs
  return between l.expr r.expr

def parse [OfScientific α] (text : String) : Except ExprError (Equation α) := do
  let (lhs, rhs) ← cutAtEquals text
  parseSides lhs rhs

def text (lit : α → String) (eq : Equation α) : String := eq.sides.text lit

def inspect (text : String) : String := "Equation(" ++ Text.quoted text ++ ")"

/-- The variables of the equation that have no value, in the order in which they first occur. -/
def unknowns (env : Env α) (eq : Equation α) : List String :=
  (eq.occurrences.map (·.1)).filter fun x => (env x).isNone

variable [Arithmetic α]

def residual (env : Env α) (eq : Equation α) : Except Failure α := do
  return Arithmetic.apply .sub (← eq.sides.lhs.eval env) (← eq.sides.rhs.eval env)

end Equation

def Equation.isSatisfied (rel abs : Float) (env : Env Float) (eq : Equation Float) :
    Except Failure Bool := do
  let a ← eq.sides.lhs.eval env
  let b ← eq.sides.rhs.eval env
  (isClose rel abs a b).mapError .misuse

def defaultTolerance : Float := 1e-9

end Equate
