import Equate.Bindings
import Equate.Log
import Equate.Precision
import Equate.Repl.Directive
import Equate.Summary

/-!
# The interpreter of input lines

Lines are processed one after another in a state of bindings and settings. `process` gives the
reply to a line and the state after it. A reply tells whether the line failed; what is printed is
its text.
-/

namespace Equate

structure Repl where
  bindings : Bindings Float
  trace : Bool
  precision : Int
  running : Bool

namespace Repl

def start (precision : Int) : Repl := ⟨[], false, precision, true⟩

inductive Fault where
  | expression (e : ExprError)
  | invalidName (name : String)
  | notOneUnknown (names : List String)
  | precision (m : Misuse)
  | missingDirective
  | unknownDirective (word : String)
  | unknownVariable (name : String)

/-- The answer to a line: nothing, something to print, or a failure. -/
inductive Reply where
  | silent
  | said (text : String)
  | failed (fault : Fault)

def Fault.text : Fault → String
  | .expression e => "Error: " ++ e.message
  | .invalidName name => "Error: invalid variable name '" ++ name ++ "'"
  | .notOneUnknown names =>
    let listed := if names.isEmpty then "none" else ", ".intercalate names
    "Error: equation has " ++ Text.ofNat names.length ++ " unknowns (" ++ listed ++
      "); use :solve NAME EQUATION"
  | .precision m => "Error: " ++ m.message
  | .missingDirective => "Unknown command. Type :help for help."
  | .unknownDirective word => "Unknown command: " ++ word ++ ". Type :help for help."
  | .unknownVariable name => "Unknown variable: " ++ name

def Reply.text? : Reply → Option String
  | .silent => none
  | .said text => some text
  | .failed fault => some fault.text

def Reply.isFailure : Reply → Bool
  | .failed _ => true
  | _ => false

/-- The reply to a failure. Only faults of what was written are replied to. -/
def Reply.ofFailure : Failure → Except Misuse Reply
  | .expression e => .ok (.failed (.expression e))
  | .misuse m => .error m

/-- What comes of a line: the reply, or a number that the precision in force cannot show; the
state after the line; and what was reported on the way. -/
structure Response where
  reply : Except Misuse Reply
  state : Repl
  log : List LogRecord

namespace Response

/-- A reply that changes nothing. -/
def say (s : Repl) (reply : Reply) : Response := ⟨.ok reply, s, []⟩

def said (s : Repl) (text : String) : Response := say s (.said text)

def fail (s : Repl) (fault : Fault) : Response := say s (.failed fault)

end Response

def helpText : String :=
  "SOLVENT REPL Commands:
  :help              Show this help
  :let NAME VALUE    Bind a variable (VALUE may be an expression)
  :unset NAME        Remove a binding
  :vars              List bound variables
  :clear             Remove all bindings
  :solve NAME EQ     Solve equation EQ for NAME
  :trace on|off      Toggle solve tracing
  :postfix EXPR      Show the postfix tokens of EXPR
  :tree EXPR         Show the tree of EXPR as an s-expression
  :precision N       Significant digits for results
  :quit              Exit

Syntax:
  2 + 4 * 3          Evaluate an expression
  (a + b) * x        Simplify with the current bindings
  x * 3 - 2 = 7      Solve for the single unbound variable
  Separate tokens with spaces; there is no unary minus.
"

def display (s : Repl) (v : Float) : Except Misuse String := Number.format (some s.precision) v

def isName (x : String) : Bool := !x.isEmpty && x.toList.all Text.isAsciiLetter

/-- The number that a text gives, as a number or else as an expression. -/
def readValue (s : Repl) (text : String) : Except Failure Float :=
  match Number.readFloat? text with
  | some v => .ok v
  | none =>
    match Formula.parse text with
    | .ok f => f.expr.eval s.bindings.env
    | .error e => .error (.expression e)

def bind (s : Repl) (name text : String) : Response :=
  if isName name then
    match s.readValue text with
    | .error e => ⟨Reply.ofFailure e, s, []⟩
    | .ok v =>
      let s := { s with bindings := s.bindings.put name v }
      ⟨(s.display v).map fun shown => .said (name ++ " = " ++ shown), s, []⟩
  else .fail s (.invalidName name)

def list (s : Repl) : Except Misuse Reply :=
  if s.bindings.isEmpty then .ok (.said "No variables bound")
  else do
    let lines ← s.bindings.sorted.mapM fun (x, v) => return x ++ " = " ++ (← s.display v)
    return .said ("\n".intercalate lines)

/-- The variable to solve for: the given one, or else the only one without a value. -/
def targetOf (s : Repl) (eq : Equation Float) : Option String → Except Fault String
  | some x => .ok x
  | none =>
    match eq.unknowns s.bindings.env with
    | [x] => .ok x
    | names => .error (.notOneUnknown names)

/-- The solution as it is printed, with the chain of equations if that is wanted and there were
steps. -/
def showSolution (s : Repl) (x : String) (eq : Equation Float) (v : Float)
    (run : Solving Float) : Except Misuse Reply := do
  let solution := x ++ " = " ++ (← s.display v)
  if s.trace && !run.steps.isEmpty then
    return .said (solution ++ "\n" ++ (run.trace x eq.sides v).chain)
  else return .said solution

/-- Solves the equation that a text gives, for the given variable or for its only unknown. -/
def solve (s : Repl) (text : String) (target : Option String) : Response :=
  match Equation.parse text with
  | .error e => .fail s (.expression e)
  | .ok eq =>
    match s.targetOf eq target with
    | .error fault => .fail s fault
    | .ok x =>
      let env := s.bindings.env
      let run := eq.solving env x
      let reply := match run.outcome with
        | .ok v => s.showSolution x eq v run
        | .error e => Reply.ofFailure e
      ⟨reply, s, eq.log env x run⟩

/-- The value of an expression, or the expression simplified if some variable has no value. -/
def evaluate (s : Repl) (text : String) : Except Misuse Reply :=
  match Formula.parse text with
  | .error e => .ok (.failed (.expression e))
  | .ok f =>
    match f.expr.eval s.bindings.env with
    | .ok v => (s.display v).map .said
    | .error (.expression (.unresolved _)) =>
      ((f.expr.simplify s.bindings.env).toTree.infixText (some s.precision)).map .said
    | .error e => Reply.ofFailure e

def reading (s : Repl) (text : String) (f : Formula Float → String) : Response :=
  match Formula.parse text with
  | .ok formula => .said s (f formula)
  | .error e => .fail s (.expression e)

/-- Switches tracing as told, or else to the other setting. -/
def setTrace (s : Repl) (setting : String) : Response :=
  let trace :=
    if ["on", "true", "1"].contains setting then true
    else if ["off", "false", "0"].contains setting then false
    else !s.trace
  .said { s with trace } (if trace then "Tracing enabled" else "Tracing disabled")

def obey (s : Repl) : Directive → Response
  | .missing => .fail s .missingDirective
  | .unknown word => .fail s (.unknownDirective word)
  | .help => .said s helpText
  | .quit => .say { s with running := false } .silent
  | .bind none => .said s "Usage: :let NAME VALUE"
  | .bind (some (name, text)) => s.bind name text
  | .unset name =>
    if name.isEmpty then .said s "Usage: :unset NAME"
    else match s.bindings.get? name with
      | none => .fail s (.unknownVariable name)
      | some _ => .said { s with bindings := s.bindings.erase name } ("Unset " ++ name)
  | .list => ⟨s.list, s, []⟩
  | .clear => .said { s with bindings := [] } "Cleared all variables"
  | .solve none => .said s "Usage: :solve NAME EQUATION"
  | .solve (some (target, text)) => s.solve text (some target)
  | .trace setting => s.setTrace setting
  | .rpn text =>
    if text.isEmpty then .said s "Usage: :postfix EXPR"
    else s.reading text fun f => Rpn.postfixText Number.short f.source
  | .tree text =>
    if text.isEmpty then .said s "Usage: :tree EXPR"
    else s.reading text fun f => f.expr.prefixText Number.short
  | .precision text =>
    if text.isEmpty then .said s "Usage: :precision N"
    else match Precision.parse text with
      | .ok p => .said { s with precision := p } ("Precision set to: " ++ Text.ofInt p)
      | .error m => .fail s (.precision m)

def answer (s : Repl) : Line → Response
  | .blank => .say s .silent
  | .directive d => s.obey d
  | .equation text => s.solve text none
  | .expression text => ⟨s.evaluate text, s, []⟩

def process (s : Repl) (line : String) : Response := s.answer (.parse line)

end Repl

end Equate
