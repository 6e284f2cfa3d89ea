import Equate.Op
import Equate.Text.Quoted

/-!
# Tokens

The lexical units of an expression. Operators are marked with where they come from: the text, or
the solver and other callers that add operations. The mark shows in a token's kind, in its
precedence, and in equality, but not in the written expression.

There are no tokens but those that are made as a literal, as a variable, as an operator of either
origin or as a parenthesis. Their kind, their precedence and their number of operands therefore
agree. A token that is put together with a kind of its own, such as a literal with a precedence, is
none.
-/

namespace Equate

/-- Whether an operator was read from a text or introduced afterwards. -/
inductive Origin where
  | parsed | introduced
  deriving DecidableEq

def Op.inspect (op : Op) : String := "Operator(" ++ Text.quoted op.text ++ ")"

def inspectVariable (x : String) : String := "Variable(" ++ Text.quoted x ++ ")"

/-- Literals are numbers of type `α`; parentheses stand in infix texts only. -/
inductive Token (α : Type) where
  | literal (value : α)
  | name (x : String)
  | operator (origin : Origin) (op : Op)
  | openParen
  | closeParen

namespace Token

variable {α : Type}

def kind : Token α → String
  | literal _ => "literal"
  | name _ => "variable"
  | operator .parsed _ => "operator"
  | operator .introduced _ => "function"
  | openParen => "("
  | closeParen => ")"

/-- Binding strength when tokens are put in order. An introduced operator binds more strongly than
any that is read; what is no operator has none. -/
def precedence : Token α → Nat
  | operator .parsed op => op.precedence
  | operator .introduced _ => 4
  | _ => 0

def arity : Token α → Nat
  | operator _ op => op.arity
  | _ => 0

def isOperator : Token α → Bool
  | operator .. => true
  | _ => false

def isLiteral : Token α → Bool
  | literal _ => true
  | _ => false

def isVariable : Token α → Bool
  | name _ => true
  | _ => false

def isParen : Token α → Bool
  | openParen | closeParen => true
  | _ => false

/-- Tokens are equal when their kinds and contents are; literals are compared as numbers. -/
def beq [BEq α] : Token α → Token α → Bool
  | literal v, literal w => v == w
  | name x, name y => x == y
  | operator o op, operator o' op' => o = o' ∧ op = op'
  | openParen, openParen => true
  | closeParen, closeParen => true
  | _, _ => false

instance [BEq α] : BEq (Token α) := ⟨beq⟩

def text (lit : α → String) : Token α → String
  | literal v => lit v
  | name x => x
  | operator _ op => op.text
  | openParen => "("
  | closeParen => ")"

def inspect (lit : α → String) (t : Token α) : String :=
  let content := match t with
    | literal v => lit v
    | name x => inspectVariable x
    | operator _ op => op.inspect
    | openParen | closeParen => "None"
  "Token(" ++ t.kind ++ ", " ++ content ++ ")"

end Token

end Equate
