import Equate.Log
import Equate.Precision
import Equate.Text.LetterCase

/-!
# Settings

What the environment sets for the command line: the precision of results, and from which level on
log records are shown.
-/

namespace Equate

def version : String := "0.1.0"

structure Environment where
  precision : Option String
  logLevel : Option String

structure Settings where
  precision : Int
  logLevel : String

namespace Settings

/-- The settings of an environment. A precision that cannot be used is reported and ignored. -/
def ofEnvironment (e : Environment) : Settings × List LogRecord :=
  let logLevel := Text.toUpper (e.logLevel.getD "WARNING")
  match e.precision with
  | none => (⟨Precision.default, logLevel⟩, [])
  | some text =>
    match Precision.parse text with
    | .ok p => (⟨p, logLevel⟩, [])
    | .error m => (⟨Precision.default, logLevel⟩, [.ignoredPrecision m])

def rankOf? (level : String) : Option Nat :=
  [("CRITICAL", 50), ("FATAL", 50), ("ERROR", 40), ("WARN", 30), ("WARNING", 30), ("INFO", 20),
    ("DEBUG", 10), ("NOTSET", 0)].lookup level

/-- The form of log records, which has a name like those of the levels but is none. -/
def recordForm : String × String := ("BASIC_FORMAT", "%(levelname)s:%(name)s:%(message)s")

/-- The least rank of records that are shown. An unknown level stands for warnings. -/
def leastRank (s : Settings) (verbose : Bool) : Except Misuse Nat :=
  if verbose then .ok Level.debug.rank
  else if s.logLevel == recordForm.1 then .error (.unknownLevel recordForm.2)
  else .ok ((rankOf? s.logLevel).getD Level.warning.rank)

end Settings

end Equate
