import Equate.Op

/-!
# Arithmetic

Expressions are about any type of numbers whose operators are total. The program computes with
doubles: division by zero and overflow give infinities or no number, never an error.
-/

namespace Equate

class Arithmetic (α : Type) where
  apply : Op → α → α → α

/-- The operators on doubles. A negative number to a fractional power is no number. -/
def Op.onFloat : Op → Float → Float → Float
  | .add => (· + ·)
  | .sub => (· - ·)
  | .mul => (· * ·)
  | .div => (· / ·)
  | .pow => Float.pow

abbrev Env (α : Type) := String → Option α

instance : Arithmetic Float where
  apply := Op.onFloat

end Equate
