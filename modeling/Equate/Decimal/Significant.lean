import Equate.Decimal.Scientific

/-!
# Significant digits

A double rounded to a number of significant digits, on its exact value.
-/

namespace Equate.Decimal

/-- No double has more significant digits than this, so asking for more changes nothing. -/
def mostDigits : Nat := 1100

/-- `mantissa · 2 ^ exponent` rounded to `count` significant digits, but at least one; a half goes
to the even neighbour, and zeros at the end are dropped. -/
def significant (count : Nat) (mantissa : Nat) (exponent : Int) : Scientific :=
  if mantissa == 0 then .zero
  else
    let value := Ratio.ofBinary mantissa exponent
    let unit := value.magnitude + 1 - (min (max count 1) mostDigits : Nat)
    Scientific.ofUnits (value.inUnits unit).round unit

end Equate.Decimal
