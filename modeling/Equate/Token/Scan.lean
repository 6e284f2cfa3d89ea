import Equate.Error
import Equate.Text.Blank
import Equate.Token

/-!
# Reading tokens

`scan` splits a text into tokens. The characters are first grouped into runs: blanks, letters, and
digits with points each form runs as long as possible, and any other character stands alone. Each
run is then one token, a blank, or an error at the column where it starts.
-/

namespace Equate

inductive CharClass where
  | blank | letter | digit | other
  deriving DecidableEq

/-- A point counts as a digit: it continues a number. -/
def CharClass.of (c : Char) : CharClass :=
  if Text.isBlank c then .blank
  else if Text.isAsciiLetter c then .letter
  else if Text.isAsciiDigit c || c == '.' then .digit
  else .other

/-- Whether a run of the class can hold more than one character. -/
def CharClass.grows (k : CharClass) : Bool := k != .other

structure Run where
  kind : CharClass
  first : Char
  rest : List Char

def Run.chars (r : Run) : List Char := r.first :: r.rest

/-- Puts a character in front of the runs after it. -/
def Run.cons (c : Char) : List Run → List Run
  | [] => [⟨.of c, c, []⟩]
  | r :: rs =>
    if CharClass.of c = r.kind ∧ r.kind.grows then ⟨r.kind, c, r.chars⟩ :: rs
    else ⟨.of c, c, []⟩ :: r :: rs

def runs (cs : List Char) : List Run :=
  cs.foldr Run.cons []

/-- The number written by digits with at most one point, the first of them a digit. -/
def readPlain? {α : Type} [OfScientific α] (cs : List Char) : Option α :=
  let whole := cs.takeWhile (· != '.')
  let places := (cs.dropWhile (· != '.')).drop 1
  if places.contains '.' then none
  else some (OfScientific.ofScientific (Text.digitsValue (whole ++ places)) true places.length)

/-- The token that a run spells, if it spells one; blanks spell none. -/
def Run.token? {α : Type} [OfScientific α] (r : Run) (column : Nat) :
    Except ExprError (Option (Token α)) :=
  match r.kind with
  | .blank => .ok none
  | .letter => .ok (some (.name (String.ofList r.chars)))
  | .digit =>
    if r.first == '.' then .error (.unexpectedCharacter '.' column)
    else match readPlain? r.chars with
      | some v => .ok (some (.literal v))
      | none => .error (.malformedNumber (String.ofList r.chars) column)
  | .other =>
    if r.first == '(' then .ok (some .openParen)
    else if r.first == ')' then .ok (some .closeParen)
    else match Op.ofSymbol? r.first with
      | some op => .ok (some (.operator .parsed op))
      | none => .error (.unexpectedCharacter r.first column)

def scanRuns {α : Type} [OfScientific α] (column : Nat) :
    List Run → Except ExprError (List (Token α))
  | [] => .ok []
  | r :: rs => do
    let token ← r.token? column
    let tokens ← scanRuns (column + r.chars.length) rs
    return token.toList ++ tokens

def scan {α : Type} [OfScientific α] (text : String) : Except ExprError (List (Token α)) :=
  scanRuns 0 (runs text.toList)

end Equate
