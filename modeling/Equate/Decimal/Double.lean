/-!
# Doubles as exact numbers

A finite double is a whole multiple of a power of two. `Double.ofFloat` reads it off the bits, so
that decimal texts can be computed and judged in exact arithmetic.
-/

namespace Equate.Decimal

/-- What a double stands for. A finite one is `mantissa · 2 ^ exponent` with a sign. -/
inductive Double where
  | finite (negative : Bool) (mantissa : Nat) (exponent : Int)
  | infinite (negative : Bool)
  | nan

/-- The sign, the eleven bits of the exponent and the fifty-two of the fraction, decoded. -/
def Double.ofFloat (x : Float) : Double :=
  let bits := x.toBits.toNat
  let negative := bits / Nat.pow 2 63 == 1
  let field : Nat := bits / Nat.pow 2 52 % Nat.pow 2 11
  let fraction := bits % Nat.pow 2 52
  if field == 2047 then
    if fraction == 0 then .infinite negative else .nan
  else if field == 0 then .finite negative fraction (-1074)
  else .finite negative (Nat.pow 2 52 + fraction) ((field : Int) - 1075)

structure Ratio where
  num : Nat
  den : Nat

def Ratio.ofBinary (mantissa : Nat) (exponent : Int) : Ratio :=
  ⟨mantissa * Nat.pow 2 exponent.toNat, Nat.pow 2 (-exponent).toNat⟩

/-- The ratio in units of `10 ^ unit`. -/
def Ratio.inUnits (r : Ratio) (unit : Int) : Ratio :=
  ⟨r.num * Nat.pow 10 (-unit).toNat, r.den * Nat.pow 10 unit.toNat⟩

/-- The nearest natural number; a half goes to the even neighbour. -/
def Ratio.round (r : Ratio) : Nat :=
  let whole := r.num / r.den
  let rest := 2 * (r.num % r.den)
  if rest < r.den then whole
  else if r.den < rest then whole + 1
  else if whole % 2 == 0 then whole
  else whole + 1

/-- How many decimal digits a number has; zero has none. -/
def digitCount (n : Nat) : Nat :=
  if n == 0 then 0 else (Nat.toDigits 10 n).length

/-- The `e` for which a positive ratio lies in `[10 ^ e, 10 ^ (e + 1))`. A ratio below one is
measured by the least power of ten that lifts it to one. -/
def Ratio.magnitude (r : Ratio) : Int :=
  if r.den ≤ r.num then (digitCount (r.num / r.den) : Int) - 1
  else -(digitCount ((r.den - 1) / r.num) : Int)

end Equate.Decimal
