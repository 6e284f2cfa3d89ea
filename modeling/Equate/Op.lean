/-!
# Operators

The five binary operators, how strongly they bind, and how an equation is relieved of one:
`Op.undo` says which operator the other side gains when the unknown stands in a given slot.
-/

namespace Equate

inductive Op where
  | add | sub | mul | div | pow
  deriving DecidableEq

inductive Slot where
  | left | right
  deriving DecidableEq

def Slot.index : Slot → Nat
  | .left => 0
  | .right => 1

/-- There are two operands, so no other index stands for a slot. -/
def Slot.ofIndex? : Int → Option Slot
  | 0 => some .left
  | 1 => some .right
  | _ => none

/-- The slot of an index within a path, where indices below zero count from the last operand. -/
def Slot.ofPathIndex? (i : Int) : Option Slot := ofIndex? (if i < 0 then i + 2 else i)

namespace Op

def all : List Op := [add, sub, mul, div, pow]

def symbol : Op → Char
  | add => '+'
  | sub => '-'
  | mul => '*'
  | div => '/'
  | pow => '^'

def text (op : Op) : String := op.symbol.toString

def name : Op → String
  | add => "add"
  | sub => "subtract"
  | mul => "multiply"
  | div => "divide"
  | pow => "power"

def ofSymbol? (c : Char) : Option Op :=
  all.find? (·.symbol == c)

def ofText? (s : String) : Option Op :=
  all.find? (·.text == s)

/-- Binding strength. All operators group from left to right. -/
def precedence : Op → Nat
  | add | sub => 1
  | mul | div => 2
  | pow => 3

def arity (_ : Op) : Nat := 2

def commutative : Op → Bool
  | add | mul => true
  | _ => false

/-- The operator that takes this one back. A power cannot be taken back. -/
def inverse? : Op → Option Op
  | add => some sub
  | sub => some add
  | mul => some div
  | div => some mul
  | pow => none

/-- With the unknown in slot `s`, the operator to apply to the other side and the slot that the
other side takes. From `a - x = r` follows `x = a - r`; in all other cases the inverse is applied
to `r`. -/
def undo (op : Op) (s : Slot) : Option (Op × Slot) :=
  op.inverse?.map fun inv =>
    if s = .left ∨ op.commutative then (inv, .left) else (op, s)

/-- `undo` for a position given as a number, which need not be that of an operand. -/
def undoAt (op : Op) (position : Int) : Option (Op × Int) :=
  op.inverse?.map fun inv =>
    if position = 0 ∨ op.commutative then (inv, 0) else (op, position)

end Op

end Equate
