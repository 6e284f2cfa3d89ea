import Equate.Formula
import Equate.Number

/-!
# Summaries

What there is to see of an expression tree over doubles: its written forms, its variables and its
measures. Trees are read through their tokens in postfix order, so that a summary also exists for
trees whose tokens do not fit together.
-/

namespace Equate

/-- How the literals among some tokens are written with a precision. Without literals every
precision will do. -/
def literalWriter (precision : Option Int) (tokens : List (Token Float)) :
    Except Misuse (Float → String) :=
  match precision with
  | none => .ok Number.short
  | some p =>
    if tokens.any (·.isLiteral) then (Number.checkPrecision p).map Number.rounded
    else .ok Number.short

def Tree.infixText (precision : Option Int) (t : Tree (Token Float)) : Except Misuse String := do
  let tokens := t.toRpn
  return Rpn.infixText (← literalWriter precision tokens) tokens

def Tree.prefixText (precision : Option Int) (t : Tree (Token Float)) : Except Misuse String := do
  let tokens := t.toRpn
  return Rpn.prefixText (← literalWriter precision tokens) tokens

def inspectExpression (text : String) : String := "Expression(" ++ Text.quoted text ++ ")"

structure Summary where
  infixText : String
  prefixText : String
  postfixText : String
  inspected : String
  occurrences : List (String × Nat)
  constant : Bool
  depth : Nat
  size : Nat

def Summary.of (precision : Option Int) (t : Tree (Token Float)) (source : List (Token Float)) :
    Except Misuse Summary := do
  let tokens := t.toRpn
  let lit ← literalWriter precision tokens
  let occurrences := tally (Rpn.names tokens)
  return {
    infixText := Rpn.infixText lit tokens
    prefixText := Rpn.prefixText lit tokens
    postfixText := Rpn.postfixText Number.short source
    inspected := inspectExpression (Rpn.infixText Number.short tokens)
    occurrences
    constant := occurrences.isEmpty
    depth := t.depth
    size := t.size }

def Formula.summary (precision : Option Int) (f : Formula Float) : Except Misuse Summary :=
  Summary.of precision f.expr.toTree f.source

end Equate
