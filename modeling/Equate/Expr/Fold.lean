import Equate.Expr

/-!
# Folding

Replacing what can be evaluated by its value. One node is folded when its operands are leaves and
have values; `simplify` folds all nodes from the leaves up.
-/

namespace Equate.Expr

variable {α : Type} [Arithmetic α]

/-- The literal that an operation on two leaves becomes, if it has a value. -/
def foldRoot? (env : Env α) : Expr α → Option (Expr α)
  | node o op l r =>
    if l.isLeaf && r.isLeaf then
      match eval env (node o op l r) with
      | .ok v => some (lit v)
      | .error _ => none
    else none
  | _ => none

def foldRoot (env : Env α) (e : Expr α) : Expr α := (e.foldRoot? env).getD e

/-- The expression with every operation that has a value replaced by that value. Variables alone
stay, with or without a value. -/
def simplify (env : Env α) : Expr α → Expr α
  | node o op l r => foldRoot env (node o op (l.simplify env) (r.simplify env))
  | e => e

/-- Folds the node at the end of a path. A path that leaves the expression leads to no node. -/
def foldAt? (env : Env α) : List Slot → Expr α → Option (Expr α)
  | [], e => e.foldRoot? env
  | .left :: path, node o op l r => (l.foldAt? env path).map fun l' => node o op l' r
  | .right :: path, node o op l r => (r.foldAt? env path).map fun r' => node o op l r'
  | _ :: _, _ => none

/-- The slots that lead along a path of indices, none of which may leave the expression. -/
def slots : List Int → Expr α → Except Misuse (List Slot)
  | [], _ => .ok []
  | i :: path, node _ _ l r =>
    match Slot.ofPathIndex? i with
    | none => .error .noChildAt
    | some .left => (l.slots path).map (.left :: ·)
    | some .right => (r.slots path).map (.right :: ·)
  | _ :: _, _ => .error .noChildren

/-- Folds at each path of indices in turn. Tells for each whether there was something to fold. -/
def foldAll (env : Env α) : List (List Int) → Expr α → Except Misuse (List Bool × Expr α)
  | [], e => .ok ([], e)
  | path :: paths, e => do
    let folded := e.foldAt? env (← e.slots path)
    let (done, last) ← (folded.getD e).foldAll env paths
    return (folded.isSome :: done, last)

def tryFold (env : Env α) (e : Expr α) : Option α := (e.eval env).toOption

end Equate.Expr
