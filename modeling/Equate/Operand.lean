import Equate.Bindings
import Equate.Formula

/-!
# Operands

What may be offered as an operand of a new operation: a tree, which is used as it is, or a token,
a number or a name, which become a leaf.
-/

namespace Equate

/-- Integers as numbers, if there are numbers that big. -/
class OfInteger (α : Type) where
  ofInteger? : Int → Option α

/-- The doubles end at `2 ^ 1024 - 2 ^ 971`, and integers half a step beyond that are too big. -/
instance : OfInteger Float where
  ofInteger? n := if n.natAbs < Nat.pow 2 1024 - Nat.pow 2 970 then some (Float.ofInt n) else none

/-- Offers of operands, where `ρ` are the trees at hand and `τ` the tokens. -/
inductive Operand (ρ α : Type) (τ : Type := Token α) where
  | tree (t : ρ)
  | token (t : τ)
  | number (v : α)
  | integer (n : Int)
  | name (x : String)
  | boolean
  | unusable (kind : String)

/-- What an operand becomes: the tree that it is, or a leaf, with the token that was offered or with
a new one. -/
inductive Operand.Use (ρ α τ : Type) where
  | tree (t : ρ)
  | token (t : τ)
  | new (t : Token α)

namespace Operand

section Read

variable {ρ α τ : Type} [OfInteger α]

/-- What is made of the operand. Every token is accepted, an operator or a parenthesis too. -/
def read : Operand ρ α τ → Except Misuse (Use ρ α τ)
  | tree t => .ok (.tree t)
  | token t => .ok (.token t)
  | number v => .ok (.new (.literal v))
  | integer n =>
    match OfInteger.ofInteger? n with
    | some v => .ok (.new (.literal v))
    | none => .error .integerTooBig
  | name x => (checkName x).map fun x => .new (.name x)
  | boolean => .error .booleanOperand
  | unusable kind => .error (.unusableOperand kind)

end Read

def toTree {α : Type} [OfInteger α] (o : Operand (Tree (Token α)) α) :
    Except Misuse (Tree (Token α)) := do
  match ← o.read with
  | .tree t => return t
  | .token t | .new t => return .leaf t

end Operand

/-- An operand as a user describes it: its text is still to be read, its name to be looked up, and
its token may be one of an unknown operator. -/
inductive Offer (α : Type) where
  | number (v : α)
  | integer (n : Int)
  | name (x : String)
  | named (x : String)
  | text (s : String)
  | token (t : Except Misuse (Token α))
  | slot (s : String)
  | boolean
  | unusable (kind : String)

/-- The operand that is described. Formulas become trees by `ofFormula`, slots by `ofSlot`. -/
def Offer.resolve {ρ α : Type} {m : Type → Type} [Monad m] [MonadExceptOf Failure m]
    [OfScientific α] (ofFormula : Formula α → m ρ) (ofSlot : String → m ρ) :
    Offer α → m (Operand ρ α)
  | .number v => return .number v
  | .integer n => return .integer n
  | .name x => return .name x
  | .named x =>
    match checkName x with
    | .ok x => return .name x
    | .error e => throw (.misuse e)
  | .text s =>
    match Formula.parse s with
    | .ok f => return .tree (← ofFormula f)
    | .error e => throw (.expression e)
  | .token (.ok t) => return .token t
  | .token (.error e) => throw (.misuse e)
  | .slot s => return .tree (← ofSlot s)
  | .boolean => return .boolean
  | .unusable kind => return .unusable kind

end Equate
