import Equate.Arithmetic
import Equate.Error

/-!
# Bindings

Values of variables as a list of names with values, at most one for each name. New names go to
the end.
-/

namespace Equate

/-- A name that a variable can have: any but the empty one. -/
def checkName (x : String) : Except Misuse String :=
  if x == "" then .error .emptyName else .ok x

abbrev Bindings (α : Type) := List (String × α)

namespace Bindings

variable {α : Type}

def get? (b : Bindings α) (x : String) : Option α := List.lookup x b

def env (b : Bindings α) : Env α := b.get?

def put (x : String) (v : α) : Bindings α → Bindings α
  | [] => [(x, v)]
  | (y, w) :: rest => if y = x then (x, v) :: rest else (y, w) :: put x v rest

def erase (x : String) (b : Bindings α) : Bindings α := b.filter (·.1 != x)

def sorted (b : Bindings α) : Bindings α := b.mergeSort fun p q => p.1 ≤ q.1

def check (b : Bindings α) : Except Misuse (Env α) :=
  if b.any (·.1 == "") then .error .emptyName else .ok b.env

end Bindings

end Equate
