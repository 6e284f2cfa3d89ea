import Equate.Op
import Equate.Text.Digit
import Equate.Text.Quoted

/-!
# Errors

What can go wrong, as causes. An `ExprError` is a fault of the text or of the equation that a user
wrote, and the command line answers it with its message. A `Misuse` is a call with arguments that
no operation accepts. `message` gives the wording of each.
-/

namespace Equate

inductive ExprError.Family where
  | lexical | grammar | parentheses | unresolved | unsolvable
  deriving DecidableEq

/-- Faults of a text, an expression or an equation. Columns count characters from zero. -/
inductive ExprError where
  | unexpectedCharacter (c : Char) (column : Nat)
  | malformedNumber (digits : String) (column : Nat)
  | unexpectedClose
  | missingClose
  | strayParenthesis
  | missingOperands (op : Op) (found : Nat)
  | emptyExpression
  | unjoinedOperands (count : Nat)
  | notOneEquals (text : String)
  | unresolved (name : String)
  | alreadyBound (target : String)
  | absent (target : String)
  | repeated (target : String) (count : Nat)
  | noInverse (target : String) (op : Op)
  | notIsolated (target : String) (steps : Nat)
  | noParent (target : String)
  | notFound (target : String)
  deriving DecidableEq

namespace ExprError

def family : ExprError → Family
  | unexpectedCharacter .. | malformedNumber .. => .lexical
  | unexpectedClose | missingClose => .parentheses
  | strayParenthesis | missingOperands .. | emptyExpression | unjoinedOperands _
  | notOneEquals _ => .grammar
  | unresolved _ => .unresolved
  | alreadyBound _ | absent _ | repeated .. | noInverse .. | notIsolated .. | noParent _
  | notFound _ => .unsolvable

def message : ExprError → String
  | unexpectedCharacter c column =>
    "Unexpected character '" ++ c.toString ++ "' (column " ++ Text.ofNat column ++ ")"
  | malformedNumber digits column =>
    "Malformed number '" ++ digits ++ "' (column " ++ Text.ofNat column ++ ")"
  | unexpectedClose => "Unbalanced parentheses: unexpected ')'"
  | missingClose => "Unbalanced parentheses: missing ')'"
  | strayParenthesis => "Parenthesis in postfix token stream"
  | missingOperands op found =>
    "Operator '" ++ op.text ++ "' expects " ++ Text.ofNat op.arity ++ " operands, found " ++
      Text.ofNat found
  | emptyExpression => "Empty expression"
  | unjoinedOperands n =>
    "Malformed expression: " ++ Text.ofNat n ++ " operands are not joined by operators"
  | notOneEquals text => "Equation must contain exactly one '=': " ++ Text.quoted text
  | unresolved name => "Variable '" ++ name ++ "' has no bound value"
  | alreadyBound target => "Cannot solve for '" ++ target ++ "': it already has a value"
  | absent target => "Variable '" ++ target ++ "' does not occur in the equation"
  | repeated target n =>
    "Variable '" ++ target ++ "' occurs " ++ Text.ofNat n ++
      " times; solving requires exactly one occurrence"
  | noInverse target op =>
    "Cannot isolate '" ++ target ++ "': operator '" ++ op.text ++ "' has no inverse"
  | notIsolated target steps =>
    "Failed to isolate '" ++ target ++ "' after " ++ Text.ofNat steps ++ " steps"
  | noParent target => "Unable to locate the parent node of '" ++ target ++ "'"
  | notFound target => "Variable '" ++ target ++ "' could not be found"

end ExprError

inductive Misuse.Kind where
  | value | type | key | index | part | overflow
  deriving DecidableEq

/-- Calls with arguments that no operation accepts. -/
inductive Misuse where
  | emptyName
  | unknownOperator (symbol : String)
  | operandCount (op : Op) (got : Nat)
  | notAValue (paren : Char)
  | noInverse (op : Op)
  | childCount (payload : String) (expected got : Nat)
  | notAnOperation
  | notAnOperatorToken
  | positionOutOfRange (arity : Nat) (position : Int)
  | totalOperands (arity : Nat)
  | booleanOperand
  | integerTooBig
  | unusableOperand (kind : String)
  | notASide (kind : String)
  | childlessOperator
  | noChildren
  | noChildAt
  | dangling
  | noSlot (name : String)
  | negativeTolerance
  | precisionNotInteger (shown : String)
  | precisionTooSmall (least value : Int)
  | precisionMissing
  | precisionTooBig
  | precisionUnreadable
  | precisionInfinite
  | unknownLevel (level : String)
  | bindingMissing
  | nulInPath
  deriving DecidableEq

namespace Misuse

def kind : Misuse → Kind
  | emptyName | notAnOperation | booleanOperand | unusableOperand _ | notASide _
  | childlessOperator | noChildren => .type
  | unknownOperator _ | noSlot _ => .key
  | noChildAt => .index
  | bindingMissing => .part
  | precisionInfinite | integerTooBig => .overflow
  | _ => .value

def message : Misuse → String
  | emptyName => "Variable name must be a non-empty string"
  | unknownOperator symbol => Text.quoted symbol
  | operandCount op got =>
    "Operator '" ++ op.text ++ "' takes " ++ Text.ofNat op.arity ++ " operands, got " ++
      Text.ofNat got
  | notAValue paren => "Cannot evaluate token Token(" ++ paren.toString ++ ", None)"
  | noInverse op => "Operator '" ++ op.text ++ "' has no inverse"
  | childCount payload expected got =>
    "Node " ++ payload ++ " expects " ++ Text.ofNat expected ++ " children, got " ++
      Text.ofNat got
  | notAnOperation => "operation must be an Operator or an operator Token"
  | notAnOperatorToken => "Token must be an operator or a function"
  | positionOutOfRange arity position =>
    "Position must be between 0 and " ++ Text.ofNat (arity - 1) ++ ", got " ++
      Text.ofInt position
  | totalOperands arity => "The total number of operands must equal " ++ Text.ofNat arity
  | booleanOperand => "Booleans are not valid operands"
  | integerTooBig => "int too large to convert to float"
  | unusableOperand kind => "Cannot use " ++ kind ++ " as an operand"
  | notASide kind => "Expected Expression or str, got " ++ kind
  | childlessOperator => "'NoneType' object is not iterable"
  | noSlot name => Text.quoted name
  | noChildren => "'NoneType' object is not subscriptable"
  | noChildAt => "list index out of range"
  | dangling => "Expression tree not formed"
  | negativeTolerance => "tolerances must be non-negative"
  | precisionNotInteger shown => "Precision must be an integer, got " ++ shown
  | precisionTooSmall least value =>
    "Precision must be at least " ++ Text.ofInt least ++ ", got " ++ Text.ofInt value
  | precisionMissing => "Format specifier missing precision"
  | precisionTooBig => "precision too big"
  | precisionUnreadable => "Too many decimal digits in format string"
  | precisionInfinite => "cannot convert float infinity to integer"
  | unknownLevel level => "Unknown level: " ++ Text.quoted level
  | bindingMissing => "'list' object has no attribute 'partition'"
  | nulInPath => "embedded null byte"

end Misuse

inductive Failure where
  | expression (e : ExprError)
  | misuse (m : Misuse)
  deriving DecidableEq

namespace Failure

def message : Failure → String
  | expression e => e.message
  | misuse m => m.message

end Failure

end Equate
