import Equate.CommandLine.Help
import Equate.CommandLine.Options
import Equate.CommandLine.Place
import Equate.Repl.Run

/-!
# The command line

What the program does with its arguments. `plan` decides what is to be run and in which state it
starts; `run` carries the plan out on given input, so that nothing is left to the outside but to
read and to print.
-/

namespace Equate.CommandLine

open Repl (Output Ending)

inductive Plan where
  | finish (o : Output) (ending : Ending)
  | script (path : String) (quiet : Bool) (s : Repl)
  | line (text : String) (s : Repl)
  | input (s : Repl)

/-- What is to be done, and the least rank of the log records that are shown. -/
structure Planned where
  plan : Plan
  leastRank : Nat

def nonempty? (s : Option String) : Option String := s.filter fun s => !s.isEmpty

def invalidBinding (binding reason : String) : Plan :=
  .finish (.warn ("Invalid binding '" ++ binding ++ "': " ++ reason ++ "\n")) (.exit 2)

/-- Binds names to values, each given as `NAME=VALUE`, and goes on in the state reached. The first
binding that fails ends the run; whether one failed is told from the first word of its answer. -/
def bindAll (next : Repl → Plan) (s : Repl) : List (Option String) → Plan
  | [] => next s
  | none :: _ => .finish .empty (.broken .bindingMissing)
  | some binding :: rest =>
    let (name, value) := cutEquals binding.toList
    match value with
    | none => invalidBinding binding "expected NAME=VALUE"
    | some value =>
      let trimmed (cs : List Char) := Text.trim (String.ofList cs)
      let r := s.bind (trimmed name) (trimmed value)
      match r.reply with
      | .error m => .finish .empty (.broken m)
      | .ok reply =>
        if Repl.looksFailed reply.printed then invalidBinding binding reply.printed
        else bindAll next r.state rest

/-- The script comes first, then the expression, then the standard input. No script has the
character U+0000 in its path. -/
def choose (o : Options) (s : Repl) : Plan :=
  match nonempty? o.script, nonempty? o.expr with
  | some path, _ =>
    if path.toList.contains '\x00' then .finish .empty (.broken .nulInPath)
    else .script (tidyPath path) o.quiet s
  | none, some text => .line text s
  | none, none => .input s

def plan (settings : Settings) (arguments : List String) : Planned :=
  match Options.parse arguments with
  | .error .help => ⟨.finish (.print (help settings.precision)) (.exit 0), 0⟩
  | .error .version => ⟨.finish (.print versionLine) (.exit 0), 0⟩
  | .error (.refused e) =>
    ⟨.finish (.warn (usage ++ "solvent: error: " ++ e.message ++ "\n")) (.exit 2), 0⟩
  | .ok o =>
    let s := Repl.start (o.precision.getD settings.precision)
    let s := { s with trace := o.trace }
    match settings.leastRank o.verbose with
    | .ok rank => ⟨bindAll (choose o) s o.bindings, rank⟩
    | .error m => ⟨.finish .empty (.broken m), 0⟩

def streamLines (text : String) : List String :=
  (Text.cutAfter (· == '\n') (Text.unifyLineEnds text.toList)).map String.ofList

def scriptLines (text : String) : List String :=
  (Text.cutAfter Text.endsLine (Text.unifyLineEnds text.toList)).map String.ofList

def runScript (path : String) (quiet : Bool) (s : Repl) :
    Except ReadFailure String → Output × Ending
  | .ok text =>
    let r := Repl.runScript path quiet s 1 (scriptLines text)
    (r.output, r.ending)
  | .error f => (.warn ("Error reading " ++ path ++ ": " ++ f.message path ++ "\n"), .exit 1)

/-- The run of the standard input: a conversation at a terminal, else a stream. -/
def runInput (terminal : Bool) (s : Repl) (text : String) : Output × Ending :=
  let lines := streamLines text
  if terminal then
    let r := s.converse lines
    (.print Repl.banner ++ r.output, r.ending)
  else
    let r := s.runStream lines
    (r.output, r.ending)

structure World where
  environment : Environment
  files : Files
  stdin : String
  terminal : Bool

/-- The whole run of the program: all that it writes, with the log records that are shown, and how
it ends. -/
def run (w : World) (arguments : List String) : Output × Ending :=
  let (settings, warnings) := Settings.ofEnvironment w.environment
  let planned := plan settings arguments
  let (output, ending) := match planned.plan with
    | .finish o ending => (o, ending)
    | .script path quiet s => runScript path quiet s (w.files.read path)
    | .line text s =>
      let r := s.runLine text
      (r.output, r.ending)
    | .input s => runInput w.terminal s w.stdin
  ({ output with log := warnings ++ LogRecord.atLeast planned.leastRank output.log }, ending)

end Equate.CommandLine
