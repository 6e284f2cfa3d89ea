import Equate.Trace

/-!
# Log records

What the program reports about its work besides its results. A record is what happened; its level
and its wording follow from that.
-/

namespace Equate

inductive Level where
  | debug | warning
  deriving DecidableEq

namespace Level

def name : Level → String
  | debug => "DEBUG"
  | warning => "WARNING"

def rank : Level → Nat
  | debug => 10
  | warning => 30

end Level

/-- What is reported: a target that was refused, a step of a solution, a solution, and a setting
that cannot be used. -/
inductive LogRecord where
  | rejected (sides : Sides Float) (e : ExprError)
  | step (number : Nat) (s : SolveStep (Sides Float))
  | solved (target : String) (value : Float) (steps : Nat)
  | ignoredPrecision (m : Misuse)

namespace LogRecord

def level : LogRecord → Level
  | ignoredPrecision _ => .warning
  | _ => .debug

def text : LogRecord → String
  | rejected sides e => "Rejected solve of " ++ sides.text Number.short ++ ": " ++ e.message
  | step number s =>
    "Step " ++ Text.ofNat number ++ ": " ++ (s.trace (Sides.text Number.short)).text
  | solved target value steps =>
    "Solved " ++ target ++ " = " ++ Number.exact value ++ " in " ++ Text.ofNat steps ++ " step(s)"
  | ignoredPrecision m => "Ignoring SOLVENT_OUTPUT_PRECISION: " ++ m.message

def atLeast (rank : Nat) (records : List LogRecord) : List LogRecord :=
  records.filter (rank ≤ ·.level.rank)

end LogRecord

def Equation.log (env : Env Float) (x : String) (eq : Equation Float) (run : Solving Float) :
    List LogRecord :=
  match checkTarget env x eq.occurrences with
  | .error e => [.rejected eq.sides e]
  | .ok () =>
    let steps := run.steps.zipIdx.map fun (s, i) => LogRecord.step (i + 1) s
    match run.outcome with
    | .ok value => steps ++ [.solved x value run.steps.length]
    | .error _ => steps

end Equate
