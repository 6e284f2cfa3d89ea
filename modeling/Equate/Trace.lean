import Equate.Equation.Solve
import Equate.Number

/-!
# Traces

The record of a solution as text: the equation at the start and at the end, and before and after
every step. It is shown in full, in one line, or as the chain of equations.
-/

namespace Equate

/-- One operator taken off, with the equation before and after it. -/
structure TraceStep where
  undone : String
  applied : String
  position : Int
  before : String
  after : String

def TraceStep.text (s : TraceStep) : String :=
  "undo " ++ s.undone ++ " (apply " ++ s.applied ++ "): " ++ s.before ++ " → " ++ s.after

/-- A solution with its steps. What is not known is left out. -/
structure Trace where
  target : Option String
  initial : Option String
  final : Option String
  value : Option Float
  steps : List TraceStep

namespace Trace

/-- An equation that is not known is shown as `None`. -/
def shown (equation : Option String) : String := equation.getD "None"

def verbose (t : Trace) : String :=
  let steps := t.steps.zipIdx.map fun (step, i) =>
    "  " ++ Text.ofNat (i + 1) ++ ". " ++ step.text
  "\n".intercalate (("Initial: " ++ shown t.initial) :: steps ++ ["Final: " ++ shown t.final])

def undone (t : Trace) : List String := t.steps.map (·.undone)

def compact (t : Trace) : String :=
  shown t.initial ++ " --[" ++ ", ".intercalate t.undone ++ "]--> " ++ shown t.final

def chain (t : Trace) : String :=
  let links := t.steps.flatMap fun step => ["  --(undo " ++ step.undone ++ ")-->", step.after]
  "\n".intercalate (shown t.initial :: links)

/-- The form of the given name; any other name means the form in full. -/
def format (style : String) (t : Trace) : String :=
  if style == "compact" then t.compact
  else if style == "chain" then t.chain
  else t.verbose

end Trace

/-- A step of a run as text, with `text` to write the equation. -/
def SolveStep.trace {σ : Type} (text : σ → String) (s : SolveStep σ) : TraceStep where
  undone := s.undone.text
  applied := s.applied.text
  position := s.slot.index
  before := text s.before
  after := text s.after

def Solving.trace (x : String) (initial : Sides Float) (value : Float) (run : Solving Float) :
    Trace where
  target := some x
  initial := some (initial.text Number.short)
  final := some (run.sides.text Number.short)
  value := some value
  steps := run.steps.map (·.trace (Sides.text Number.short))

end Equate
