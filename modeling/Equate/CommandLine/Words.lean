import Equate.CommandLine.Flag
import Equate.Error
import Equate.Text.Blank

/-!
# Words of a command line

Every word of a command line is an operand, a flag as it was spelled, or the separator `--`, after
which all words are operands. A long flag may be cut short as long as one flag alone fits; a value
may be attached to a flag, after `=` or directly after a short one.
-/

namespace Equate.CommandLine

inductive UsageError where
  | expectedValue (f : Flag)
  | ignoredValue (f : Flag) (text : String)
  | ambiguous (word : String) (candidates : List String)
  | unrecognized (words : List String)
  | precision (m : Misuse)

def UsageError.message : UsageError → String
  | .expectedValue f => "argument " ++ f.name ++ ": expected one argument"
  | .ignoredValue f text =>
    "argument " ++ f.name ++ ": ignored explicit argument " ++ Text.quoted text
  | .ambiguous word candidates =>
    "ambiguous option: " ++ word ++ " could match " ++ ", ".intercalate candidates
  | .unrecognized words => "unrecognized arguments: " ++ " ".intercalate words
  | .precision m => "argument " ++ Flag.name .precision ++ ": " ++ m.message

/-- The kinds of words. A flag comes with the text attached to it. -/
inductive Word where
  | operand (s : String)
  | separator (s : String)
  | flag (f : Flag) (long : Bool) (attached : Option (List Char))
  | unknown (s : String)

/-- The text before the first `=` and, if there is one, the text after it. -/
def cutEquals (cs : List Char) : List Char × Option (List Char) :=
  match cs.dropWhile (· != '=') with
  | [] => (cs, none)
  | _ :: value => (cs.takeWhile (· != '='), some value)

/-- Whether a word with a dash in front is a number: digits, perhaps with a point and then at least
one digit after it. A line feed at the end is overlooked. -/
def isNegativeNumber (cs : List Char) : Bool :=
  let isDigit (c : Char) := (Text.digitValue? c).isSome
  let cs := if cs.getLast? == some '\n' then cs.dropLast else cs
  match cs with
  | '-' :: cs =>
    match cs.dropWhile isDigit with
    | [] => !cs.isEmpty
    | '.' :: places => !places.isEmpty && places.all isDigit
    | _ => false
  | _ => false

/-- A word with a dash that is no flag is an operand if it is a number or holds a space. -/
def strayWord (cs : List Char) : Word :=
  if isNegativeNumber cs || cs.contains ' ' then .operand (String.ofList cs)
  else .unknown (String.ofList cs)

def longWord (cs : List Char) : Except UsageError Word :=
  let (start, value) := cutEquals cs
  let fitting := Flag.table.filter fun (s, _) => start.isPrefixOf s.toList
  match fitting with
  | [] => .ok (strayWord cs)
  | [(_, f)] => .ok (.flag f true value)
  | _ => .error (.ambiguous (String.ofList cs) (fitting.map (·.1)))

def shortWord (cs : List Char) : Word :=
  match Flag.ofSpelling? (String.ofList (cs.take 2)) with
  | some f => .flag f false (some (cs.drop 2))
  | none => strayWord cs

def Word.ofString (s : String) : Except UsageError Word :=
  let cs := s.toList
  match cs with
  | '-' :: c :: _ =>
    match Flag.ofSpelling? s with
    | some f => .ok (.flag f (c == '-') none)
    | none =>
      match cutEquals cs with
      | (start, some value) =>
        match Flag.ofSpelling? (String.ofList start) with
        | some f => .ok (.flag f (c == '-') (some value))
        | none => if c == '-' then longWord cs else .ok (shortWord cs)
      | (_, none) => if c == '-' then longWord cs else .ok (shortWord cs)
  | _ => .ok (.operand s)

def words : List String → Except UsageError (List Word)
  | [] => .ok []
  | s :: rest =>
    if s == "--" then .ok (.separator s :: rest.map .operand)
    else do return (← Word.ofString s) :: (← words rest)

end Equate.CommandLine
