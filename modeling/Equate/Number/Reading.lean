import Equate.Number
import Equate.Text.Blank

/-!
# Reading numbers

Numbers that users give directly, outside of expressions. The forms are wider than those of a
literal: a sign, an exponent, `inf` and `nan`, single underscores between digits, blanks around
the number, and the digits of any script.
-/

namespace Equate.Number

open Text

/-- The double nearest to `± digits · 10 ^ exponent`. A number far beyond the range of doubles is
infinite or zero, however large its exponent. -/
def ofDecimal (negative : Bool) (digits : Nat) (exponent : Int) : Float :=
  let magnitude := (Decimal.digitCount digits : Int) + exponent
  let x : Float :=
    if digits == 0 || magnitude < -400 then 0.0
    else if magnitude > 400 then 1.0 / 0.0
    else if exponent < 0 then Float.ofScientific digits true exponent.natAbs
    else Float.ofScientific digits false exponent.natAbs
  if negative then -x else x

def takeSign : List Char → Bool × List Char
  | '-' :: cs => (true, cs)
  | '+' :: cs => (false, cs)
  | cs => (false, cs)

/-- The digits at the start, with single underscores between digits left out, and the rest. -/
def takeDigits : List Char → List Char × List Char
  | [] => ([], [])
  | c :: '_' :: d :: cs =>
    if isAsciiDigit c && isAsciiDigit d then
      let (digits, rest) := takeDigits (d :: cs)
      (c :: digits, rest)
    else if isAsciiDigit c then ([c], '_' :: d :: cs)
    else ([], c :: '_' :: d :: cs)
  | c :: cs =>
    if isAsciiDigit c then
      let (digits, rest) := takeDigits cs
      (c :: digits, rest)
    else ([], c :: cs)

/-- The characters of a number: blanks around it are dropped, and digits of other scripts become
those of ASCII. -/
def clean (s : String) : List Char :=
  (trimBoth isNumberBlank s.toList).map fun c =>
    match digitValue? c with
    | some d => Char.ofNat (0x30 + d)
    | none => c

/-- The digits before and after a point, and the rest. -/
def takeFraction (cs : List Char) : List Char × List Char × List Char :=
  match takeDigits cs with
  | (whole, '.' :: cs) => let (places, rest) := takeDigits cs; (whole, places, rest)
  | (whole, rest) => (whole, [], rest)

/-- The exponent that makes up the rest of a number. No rest means no exponent. -/
def exponent? : List Char → Option Int
  | [] => some 0
  | e :: cs =>
    if e == 'e' || e == 'E' then
      let (negative, cs) := takeSign cs
      match takeDigits cs with
      | ([], _) => none
      | (digits, []) =>
        let n : Int := digitsValue digits
        some (if negative then -n else n)
      | _ => none
    else none

/-- The double that a text without sign writes in digits. -/
def unsigned? (negative : Bool) (cs : List Char) : Option Float :=
  let (whole, places, rest) := takeFraction cs
  if whole.isEmpty && places.isEmpty then none
  else (exponent? rest).map fun e =>
    ofDecimal negative (digitsValue (whole ++ places)) (e - (places.length : Int))

/-- The infinity or the absence of a number that a word stands for. -/
def ofWord? (negative : Bool) (word : List Char) : Option Float :=
  let word := String.ofList (word.map Char.toLower)
  if word == "inf" || word == "infinity" then some (if negative then -1.0 / 0.0 else 1.0 / 0.0)
  else if word == "nan" then some (0.0 / 0.0)
  else none

def readFloat? (s : String) : Option Float :=
  let (negative, cs) := takeSign (clean s)
  (ofWord? negative cs).or (unsigned? negative cs)

/-- Longer texts of digits are not read as integers. -/
def mostIntegerDigits : Nat := 4300

def readInt? (s : String) : Option Int :=
  let (negative, cs) := takeSign (clean s)
  match takeDigits cs with
  | ([], _) => none
  | (digits, []) =>
    if digits.length ≤ mostIntegerDigits then
      let n : Int := digitsValue digits
      some (if negative then -n else n)
    else none
  | _ => none

/-- A double without its fraction. Infinities and what is no number have no whole part. -/
def truncate? (x : Float) : Option Int :=
  match Decimal.Double.ofFloat x with
  | .finite negative mantissa exponent =>
    let r := Decimal.Ratio.ofBinary mantissa exponent
    let n : Int := (r.num / r.den : Nat)
    some (if negative then -n else n)
  | _ => none

end Equate.Number
