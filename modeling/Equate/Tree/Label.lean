import Equate.Error
import Equate.Token
import Equate.Tree

/-!
# Labelled trees

Trees whose payloads are integers, texts, operators or nothing. A node whose payload is an
operator must have as many children as the operator has operands.
-/

namespace Equate

inductive Label where
  | integer (n : Int)
  | text (s : String)
  | operator (op : Op)
  | nothing
  deriving DecidableEq

namespace Label

def arity? : Label → Option Nat
  | operator op => some op.arity
  | _ => none

def name : Label → String
  | integer n => Text.ofInt n
  | text s => s
  | operator op => op.text
  | nothing => "NULL"

def inspect : Label → String
  | integer n => Text.ofInt n
  | text s => Text.quoted s
  | operator op => op.inspect
  | nothing => "None"

end Label

def Tree.label (payload : Label) (children : List (Tree Label)) : Except Misuse (Tree Label) :=
  match payload.arity? with
  | some n =>
    if children.length = n then .ok (.node payload children)
    else .error (.childCount payload.name n children.length)
  | none => .ok (.node payload children)

end Equate
