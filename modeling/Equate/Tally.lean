/-!
# Tallies

How often each item of a list occurs, in the order in which the items first occur.
-/

namespace Equate

def countOne {κ : Type} [DecidableEq κ] (x : κ) : List (κ × Nat) → List (κ × Nat)
  | [] => [(x, 1)]
  | (y, n) :: rest => if y = x then (y, n + 1) :: rest else (y, n) :: countOne x rest

def tally {κ : Type} [DecidableEq κ] (xs : List κ) : List (κ × Nat) :=
  xs.foldl (fun counts x => countOne x counts) []

end Equate
