import Equate.Expr.Fold
import Equate.Token.Scan
import Equate.Tree

/-!
# Formulas

An expression together with the postfix tokens that it was read from. The tokens keep the text as
it was read, whatever becomes of the expression.
-/

namespace Equate

def Expr.toTree {α : Type} : Expr α → Tree (Token α)
  | node o op l r => .node (.operator o op) [l.toTree, r.toTree]
  | e => .leaf e.token

def Tree.toRpn {α : Type} (t : Tree (Token α)) : List (Token α) := t.walkPostorder.map (·.payload)

/-- An expression and the postfix tokens it was read from. -/
structure Formula (α : Type) where
  expr : Expr α
  source : List (Token α)

namespace Formula

variable {α : Type}

def postfixTokens [OfScientific α] (text : String) : Except ExprError (List (Token α)) := do
  Rpn.order (← scan text)

def ofTokens (tokens : List (Token α)) : Except ExprError (Formula α) := do
  return { expr := ← Expr.ofRpn tokens, source := tokens }

def parse [OfScientific α] (text : String) : Except ExprError (Formula α) := do
  ofTokens (← postfixTokens text)

end Formula

end Equate
