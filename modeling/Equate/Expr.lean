import Equate.Arithmetic
import Equate.Error
import Equate.Rpn
import Equate.Tally

/-!
# Expressions

Expression trees: every operator has its two operands, so that an expression can fail to have a
value only through a variable without one. `ofRpn` builds the expression that a postfix list of
tokens describes, `toRpn` lists the tokens of an expression again.
-/

namespace Equate

inductive Expr (α : Type) where
  | lit (value : α)
  | var (name : String)
  | node (origin : Origin) (op : Op) (left right : Expr α)

namespace Expr

variable {α : Type}

/-! ### Structure -/

def token : Expr α → Token α
  | lit v => .literal v
  | var x => .name x
  | node o op _ _ => .operator o op

def isLeaf : Expr α → Bool
  | node .. => false
  | _ => true

def isVar (x : String) : Expr α → Bool
  | var y => y == x
  | _ => false

def depth : Expr α → Nat
  | node _ _ l r => max l.depth r.depth + 1
  | _ => 1

def size : Expr α → Nat
  | node _ _ l r => l.size + r.size + 1
  | _ => 1

def beq [BEq α] : Expr α → Expr α → Bool
  | lit v, lit w => v == w
  | var x, var y => x == y
  | node o op l r, node o' op' l' r' => o = o' && op = op' && beq l l' && beq r r'
  | _, _ => false

instance [BEq α] : BEq (Expr α) := ⟨beq⟩

/-- Where the leftmost occurrence of a variable stands, as the slots to take from the root. -/
def pathTo? (x : String) : Expr α → Option (List Slot)
  | lit _ => none
  | var y => if y = x then some [] else none
  | node _ _ l r =>
    match l.pathTo? x with
    | some path => some (.left :: path)
    | none => (r.pathTo? x).map (.right :: ·)

/-! ### Postfix order -/

/-- The tokens of the expression in postfix order, and others after them. -/
def rpnOnto (rest : List (Token α)) : Expr α → List (Token α)
  | lit v => .literal v :: rest
  | var x => .name x :: rest
  | node o op l r => l.rpnOnto (r.rpnOnto (.operator o op :: rest))

def toRpn (e : Expr α) : List (Token α) := e.rpnOnto []

/-- The expression that the remaining tokens complete. The operands read so far are on a stack,
the latest first. -/
def build (stack : List (Expr α)) : List (Token α) → Except ExprError (Expr α)
  | [] =>
    match stack with
    | [] => .error .emptyExpression
    | [e] => .ok e
    | _ => .error (.unjoinedOperands stack.length)
  | t :: ts =>
    match t with
    | .openParen | .closeParen => .error .strayParenthesis
    | .literal v => build (lit v :: stack) ts
    | .name x => build (var x :: stack) ts
    | .operator o op =>
      match stack with
      | r :: l :: below => build (node o op l r :: below) ts
      | _ => .error (.missingOperands op stack.length)

def ofRpn (tokens : List (Token α)) : Except ExprError (Expr α) := build [] tokens

/-! ### Readings -/

def eval [Arithmetic α] (env : Env α) (e : Expr α) : Except Failure α := Rpn.eval env e.toRpn

def infixText (lit : α → String) (e : Expr α) : String := Rpn.infixText lit e.toRpn

def prefixText (lit : α → String) (e : Expr α) : String := Rpn.prefixText lit e.toRpn

def occurrences (e : Expr α) : List (String × Nat) := tally (Rpn.names e.toRpn)

end Expr

end Equate
