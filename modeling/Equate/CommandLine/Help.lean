import Equate.Settings

/-!
# Help

The usage line and the help text of the command line, set for a terminal of eighty columns.
-/

namespace Equate.CommandLine

def usage : String :=
  "usage: solvent [-h] [-e EXPR] [-b NAME=VALUE] [-t] [-p PRECISION] [-q] [-v]
               [--version]
               [script]
"

def cutEvery (width : Nat) (cs : List Char) : List (List Char) :=
  (List.range ((cs.length + width - 1) / width)).map fun i => (cs.drop (i * width)).take width

/-- The explanation of the precision, which ends with the default, in lines of 54 columns. A number
too long for any line begins on the first one. -/
def precisionHelp (precision : Int) : List String :=
  let start := "Significant digits for results (default"
  let word := (Text.ofInt precision ++ ")").toList
  let room := 54 - (start.length + 1)
  if word.length ≤ room then [start ++ " " ++ String.ofList word]
  else if word.length ≤ 54 then [start, String.ofList word]
  else
    (start ++ " " ++ String.ofList (word.take room)) ::
      (cutEvery 54 (word.drop room)).map String.ofList

def help (precision : Int) : String :=
  let indent := "\n                        "
  usage ++ "
SOLVENT - infix expressions and single-unknown equations

positional arguments:
  script                Script file to run

options:
  -h, --help            show this help message and exit
  -e EXPR, --expr EXPR  Evaluate a single expression or equation
  -b NAME=VALUE, --bind NAME=VALUE
                        Bind a variable (can be specified multiple times)
  -t, --trace           Show the steps taken when solving
  -p PRECISION, --precision PRECISION" ++
    indent ++ indent.intercalate (precisionHelp precision) ++ "
  -q, --quiet           Quiet mode (suppress script output)
  -v, --verbose         Enable debug logging
  --version             show program's version number and exit

Examples:
  solvent                          Start REPL
  solvent script.solv              Run script
  solvent -e '2 + 4 * 3'           Evaluate expression
  solvent -e 'x - 2 = 3'           Solve equation
  solvent -b y=2 -e 'x * y = 8'    Solve with a bound variable
"

def versionLine : String := "solvent " ++ version ++ "\n"

end Equate.CommandLine
