import Equate.Decimal.Double

/-!
# Decimal numbers in scientific form

A decimal number as its significant digits and the exponent of the first one, with its two
written forms: positional, and with an exponent.
-/

namespace Equate.Decimal

/-- The number `d₀.d₁d₂… · 10 ^ exponent`. -/
structure Scientific where
  digits : List Char
  exponent : Int

/-- The digits without zeros at the end, but never none at all. -/
def dropTrailingZeros (digits : List Char) : List Char :=
  match (digits.reverse.dropWhile (· == '0')).reverse with
  | [] => ['0']
  | kept => kept

/-- The number `coefficient · 10 ^ unit`. -/
def Scientific.ofUnits (coefficient : Nat) (unit : Int) : Scientific :=
  let digits := Nat.toDigits 10 coefficient
  ⟨dropTrailingZeros digits, unit + (digits.length - 1)⟩

def Scientific.zero : Scientific := ⟨['0'], 0⟩

def Scientific.positional (s : Scientific) : List Char × List Char :=
  if s.exponent < 0 then
    (['0'], List.replicate ((-s.exponent).toNat - 1) '0' ++ s.digits)
  else
    let whole := s.exponent.toNat + 1
    (s.digits.take whole ++ List.replicate (whole - s.digits.length) '0', s.digits.drop whole)

/-- The exponent has a sign and at least two digits. -/
def exponentText (e : Int) : List Char :=
  let digits := Nat.toDigits 10 e.natAbs
  (if e < 0 then '-' else '+') :: (if digits.length < 2 then '0' :: digits else digits)

/-- One digit, the others after a point, and the exponent. -/
def Scientific.exponential (s : Scientific) : List Char :=
  let mantissa := match s.digits with
    | d :: f :: more => d :: '.' :: f :: more
    | digits => digits
  mantissa ++ 'e' :: exponentText s.exponent

end Equate.Decimal
