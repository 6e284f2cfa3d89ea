import Equate.Repl
import Equate.Settings
import Equate.Text.Lines

/-!
# Runs

Runs of the interpreter over many lines: a script, a stream, a single line, and a conversation
with prompts. A run ends with an exit code, or with a number that the precision in force cannot
show. Whether a line counts as failed is told from the first word of what it answers.
-/

namespace Equate.Repl

structure Output where
  stdout : String
  stderr : String
  log : List LogRecord

namespace Output

def empty : Output := ⟨"", "", []⟩

def append (a b : Output) : Output :=
  ⟨a.stdout ++ b.stdout, a.stderr ++ b.stderr, a.log ++ b.log⟩

instance : Append Output := ⟨append⟩

def print (text : String) : Output := ⟨text, "", []⟩

def warn (text : String) : Output := ⟨"", text, []⟩

def report (log : List LogRecord) : Output := ⟨"", "", log⟩

end Output

inductive Ending where
  | exit (code : Nat)
  | broken (m : Misuse)

/-- A run: what it wrote, how it ended, and the state it left. -/
structure Run where
  output : Output
  ending : Ending
  state : Repl

namespace Run

def exit (s : Repl) (code : Nat) : Run := ⟨.empty, .exit code, s⟩

def after (o : Output) (r : Run) : Run := { r with output := o ++ r.output }

end Run

/-- Whether what a line answers reads as a failure. -/
def looksFailed (text : String) : Bool :=
  Text.startsWith "Error" text || Text.startsWith "Unknown" text

/-- What is printed in reply to a line: nothing if the text is empty. -/
def Reply.printed (r : Reply) : String := r.text?.getD ""

/-- Runs the lines of a script, the first of which has the given number. Results are printed
unless `quiet`, the confirmations of directives never. The first failed line ends the run, and so
does a line that stops the interpreter. -/
def runScript (path : String) (quiet : Bool) (s : Repl) : (number : Nat) → List String → Run
  | _, [] => .exit s 0
  | number, line :: lines =>
    let r := s.process line
    match r.reply with
    | .error m => ⟨.report r.log, .broken m, r.state⟩
    | .ok reply =>
      let text := reply.printed
      if looksFailed text then
        let place := path ++ ":" ++ Text.ofNat number ++ ": "
        (Run.exit r.state 1).after (.report r.log ++ .warn (place ++ text ++ "\n"))
      else
        let silent := text.isEmpty || quiet || Text.startsWith ":" (Text.trim line)
        let output := .report r.log ++ (if silent then .empty else .print (text ++ "\n"))
        if r.state.running then (runScript path quiet r.state (number + 1) lines).after output
        else (Run.exit r.state 0).after output

/-- Runs the lines of a stream. Every reply is printed. The first failed line ends the run. -/
def runStream (s : Repl) : List String → Run
  | [] => .exit s 0
  | line :: lines =>
    let r := s.process line
    match r.reply with
    | .error m => ⟨.report r.log, .broken m, r.state⟩
    | .ok reply =>
      let text := reply.printed
      let output := .report r.log ++ (if text.isEmpty then .empty else .print (text ++ "\n"))
      if looksFailed text then (Run.exit r.state 1).after output
      else (runStream r.state lines).after output

def runLine (s : Repl) (line : String) : Run := s.runStream [line]

def banner : String :=
  "SOLVENT " ++ version ++ " - expressions and single-unknown equations\n" ++
    "Type :help for help, :quit to exit\n\n"

def prompt : String := "solvent> "

/-- What a line typed at the prompt brings: the state after it, or its failure. The line that is
the character U+0003 alone is an interruption. -/
def converseLine (s : Repl) (line : String) : Output × Except Misuse Repl :=
  if line == "\x03" then (.print "\n", .ok s)
  else
    let r := s.process line
    match r.reply with
    | .error m => (.report r.log, .error m)
    | .ok reply =>
      let text := reply.printed
      (.report r.log ++ (if text.isEmpty then .empty else .print (text ++ "\n")), .ok r.state)

/-- Prompts for lines and replies to them until the interpreter stops or the lines end. -/
def converse (s : Repl) : List String → Run
  | [] => (Run.exit s 0).after (.print (prompt ++ "\n"))
  | line :: lines =>
    let (output, next) := s.converseLine line
    let output := .print prompt ++ output
    match next with
    | .error m => ⟨output, .broken m, s⟩
    | .ok s =>
      if s.running then (s.converse lines).after output else (Run.exit s 0).after output

end Equate.Repl
