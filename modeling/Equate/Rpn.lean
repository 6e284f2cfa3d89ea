import Equate.Arithmetic
import Equate.Error
import Equate.Token

/-!
# Postfix order

Tokens in postfix order: operands first, then the operator. `order` brings infix tokens into this
order with a stack of pending operators. `reduceM` reads a postfix list with a stack of results,
whatever the results are; evaluation and the two written forms are instances of it.
-/

namespace Equate.Rpn

variable {α β : Type}

/-! ### From infix to postfix -/

/-- Whether a pending operator gives way to the token: it binds at least as strongly. -/
def yields (t pending : Token α) : Bool :=
  pending.precedence != 0 && t.precedence ≤ pending.precedence

def notOpen : Token α → Bool
  | .openParen => false
  | _ => true

/-- The postfix order of infix tokens that follow the pending ones, the last of which is first in
the list. All operators group from left to right. -/
def orderFrom (pending : List (Token α)) : List (Token α) → Except ExprError (List (Token α))
  | [] => if pending.all notOpen then .ok pending else .error .missingClose
  | t :: ts =>
    match t with
    | .literal _ | .name _ => return t :: (← orderFrom pending ts)
    | .openParen => orderFrom (t :: pending) ts
    | .closeParen =>
      match pending.dropWhile notOpen with
      | [] => .error .unexpectedClose
      | _ :: outer => return pending.takeWhile notOpen ++ (← orderFrom outer ts)
    | .operator .. =>
      return pending.takeWhile (yields t) ++ (← orderFrom (t :: pending.dropWhile (yields t)) ts)

def order (tokens : List (Token α)) : Except ExprError (List (Token α)) :=
  orderFrom [] tokens

/-! ### Reading postfix with a stack -/

section Reduce

variable {m : Type → Type} [Monad m]

/-- One token on a stack of results, the latest of which comes first. An operator takes the
results of its operands, or all there are if there are fewer. -/
def reduceStep (leaf : Token α → m β) (apply : Op → List β → m β) (stack : List β)
    (t : Token α) : m (List β) :=
  match t with
  | .operator _ op => do
    let result ← apply op (stack.take op.arity).reverse
    return result :: stack.drop op.arity
  | t => do
    let result ← leaf t
    return result :: stack

def reduceM (leaf : Token α → m β) (apply : Op → List β → m β) (tokens : List (Token α)) :
    m (List β) :=
  tokens.foldlM (reduceStep leaf apply) []

end Reduce

/-! ### Evaluation -/

section Eval

variable [Arithmetic α]

def leafValue (env : Env α) : Token α → Except Failure α
  | .literal v => .ok v
  | .name x =>
    match env x with
    | some v => .ok v
    | none => .error (.expression (.unresolved x))
  | .operator _ op => .error (.misuse (.operandCount op 0))
  | .openParen => .error (.misuse (.notAValue '('))
  | .closeParen => .error (.misuse (.notAValue ')'))

def applyOp (op : Op) : List α → Except Failure α
  | [a, b] => .ok (Arithmetic.apply op a b)
  | args => .error (.misuse (.operandCount op args.length))

/-- The value of a postfix list: the first result on the stack. -/
def eval (env : Env α) (tokens : List (Token α)) : Except Failure α := do
  let stack ← reduceM (leafValue env) applyOp tokens
  match stack.getLast? with
  | some v => return v
  | none => throw (.expression .emptyExpression)

end Eval

/-! ### Written forms -/

/-- A piece of infix text and how strongly its outermost operator binds. -/
structure Phrase where
  text : String
  strength : Nat

/-- Literals and variables bind more strongly than any operator. -/
def Phrase.atom (text : String) : Phrase := ⟨text, 5⟩

/-- The text as an operand of `op`. The first operand may bind as strongly as `op`, the others
must bind more strongly; otherwise they need parentheses. -/
def Phrase.under (op : Op) (first : Bool) (p : Phrase) : String :=
  if p.strength < op.precedence || (!first && p.strength == op.precedence) then
    "(" ++ p.text ++ ")"
  else p.text

def Phrase.operands (op : Op) : List Phrase → List String
  | [] => []
  | p :: ps => p.under op true :: ps.map (Phrase.under op false)

def Phrase.join (op : Op) (args : List Phrase) : Phrase :=
  ⟨(" " ++ op.text ++ " ").intercalate (Phrase.operands op args), op.precedence⟩

/-- The infix text of a postfix list, with parentheses only where they are needed. -/
def infixText (lit : α → String) (tokens : List (Token α)) : String :=
  let stack := Id.run (reduceM (fun t => pure (Phrase.atom (t.text lit)))
    (fun op args => pure (Phrase.join op args)) tokens)
  (stack.getLast?.map (·.text)).getD ""

/-- The text of a postfix list with each operator before its operands and parentheses around
every operation. -/
def prefixText (lit : α → String) (tokens : List (Token α)) : String :=
  let stack := Id.run (reduceM (fun t => pure (t.text lit))
    (fun op args => pure ("(" ++ " ".intercalate (op.text :: args) ++ ")")) tokens)
  stack.getLast?.getD ""

def postfixText (lit : α → String) (tokens : List (Token α)) : String :=
  " ".intercalate (tokens.map (·.text lit))

/-! ### Variables -/

def names (tokens : List (Token α)) : List String :=
  tokens.filterMap fun
    | .name x => some x
    | _ => none

end Equate.Rpn
