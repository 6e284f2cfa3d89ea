import Equate.CommandLine

/-!
# The program

Reads the environment, the script and the standard input, and writes what the command line
answers. A failure that has no exit code of its own ends the program with code 1.
-/

namespace Equate.Main

open CommandLine (ReadFailure)
open Repl (Output Ending)

def write (leastRank : Nat) (o : Output) : IO Unit := do
  IO.print o.stdout
  (← IO.getStdout).flush
  IO.eprint o.stderr
  for record in LogRecord.atLeast leastRank o.log do
    IO.eprintln (record.level.name ++ " " ++ record.text)

def finish : Ending → IO UInt32
  | .exit code => return code.toUInt32
  | .broken m => do
    IO.eprintln m.message
    return 1

def readFailure : IO.Error → ReadFailure
  | .inappropriateType .. => .directory
  | .permissionDenied .. => .denied
  | _ => .missing

def readScript (path : String) : IO (Except ReadFailure String) := do
  try return .ok (← IO.FS.readFile path)
  catch e => return .error (readFailure e)

/-- All that is left of a stream. -/
partial def readAll (input : IO.FS.Stream) (before : String) : IO String := do
  let line ← input.getLine
  if line.isEmpty then return before else readAll input (before ++ line)

/-- Prompts for lines and replies to them until the interpreter stops or the input ends. -/
partial def converse (leastRank : Nat) (input : IO.FS.Stream) (s : Repl) : IO UInt32 := do
  IO.print Repl.prompt
  (← IO.getStdout).flush
  let line ← input.getLine
  if line.isEmpty then
    IO.println ""
    return 0
  let line := (CommandLine.streamLines line).headD ""
  let (output, next) := s.converseLine line
  write leastRank output
  match next with
  | .error m => finish (.broken m)
  | .ok s => if s.running then converse leastRank input s else return 0

end Equate.Main

open Equate CommandLine in
def main (arguments : List String) : IO UInt32 := do
  let environment : Environment := {
    precision := ← IO.getEnv "SOLVENT_OUTPUT_PRECISION"
    logLevel := ← IO.getEnv "SOLVENT_LOG_LEVEL" }
  let (settings, warnings) := Settings.ofEnvironment environment
  Main.write 0 (.report warnings)
  let planned := plan settings arguments
  let done := fun (output, ending) => do
    Main.write planned.leastRank output
    Main.finish ending
  match planned.plan with
  | .finish output ending => done (output, ending)
  | .script path quiet s => done (runScript path quiet s (← Main.readScript path))
  | .line text s =>
    let r := s.runLine text
    done (r.output, r.ending)
  | .input s =>
    let input ← IO.getStdin
    if ← input.isTty then
      IO.print Repl.banner
      Main.converse planned.leastRank input s
    else done (runInput false s (← Main.readAll input ""))
