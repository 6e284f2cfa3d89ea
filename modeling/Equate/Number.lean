import Equate.Decimal.Shortest
import Equate.Decimal.Significant
import Equate.Error

/-!
# Numbers as text

How doubles are written: exactly, by the shortest digits that read back, or rounded to a number of
significant digits. Results leave out the `.0` of a whole number.
-/

namespace Equate.Number

open Decimal

/-- The choices of a written form: below which exponent numbers are written positionally, and
whether whole numbers end in `.0`. Numbers below `0.0001` always take an exponent. -/
structure Style where
  exponentFrom : Int
  pointZero : Bool

/-- The digits of a number as a style arranges them. -/
def Style.digits (style : Style) (s : Scientific) : List Char :=
  if -4 ≤ s.exponent ∧ s.exponent < style.exponentFrom then
    match s.positional with
    | (whole, []) => if style.pointZero then whole ++ ['.', '0'] else whole
    | (whole, rest) => whole ++ '.' :: rest
  else s.exponential

def signed (negative : Bool) (cs : List Char) : String :=
  String.ofList (if negative then '-' :: cs else cs)

/-- A double under a style, its digits chosen by `choose`. -/
def Style.render (style : Style) (choose : Nat → Int → Scientific) (x : Float) : String :=
  match Double.ofFloat x with
  | .nan => "nan"
  | .infinite negative => signed negative ['i', 'n', 'f']
  | .finite negative mantissa exponent =>
    signed negative (style.digits (choose mantissa exponent))

/-- The shortest text that reads back as the double: with an exponent from `1e+16` on, and
recognisable as a double by its point or exponent. -/
def exact (x : Float) : String :=
  Style.render ⟨16, true⟩ shortest x

/-- `exact` without the `.0` of a whole number. -/
def short (x : Float) : String :=
  Style.render ⟨16, false⟩ shortest x

/-- Rounded to `precision` significant digits, with an exponent where the digits do not reach the
point. -/
def rounded (precision : Nat) (x : Float) : String :=
  Style.render ⟨max precision 1, false⟩ (significant precision) x

/-- Refuses a precision that no number can be written with: a negative one, or one beyond the
widths of 32 and of 64 bits. -/
def checkPrecision (precision : Int) : Except Misuse Nat :=
  if precision < 0 then .error .precisionMissing
  else if precision > 9223372036854775807 then .error .precisionUnreadable
  else if precision > 2147483647 then .error .precisionTooBig
  else .ok precision.toNat

/-- A number as results show it, exactly or with a precision. -/
def format (precision : Option Int) (x : Float) : Except Misuse String :=
  match precision with
  | none => .ok (short x)
  | some p => (checkPrecision p).map fun n => rounded n x

end Equate.Number
