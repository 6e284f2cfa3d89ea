import Equate.Equation.Solve
import Equate.Operand
import Equate.Workspace.Graph

/-!
# Workspaces

Expressions and equations that are changed in place and may share parts. An `Entry` is an
expression under its own identity: several names, and the sides of equations, may stand for one
entry, and then all see its changes. Trees of entries share nodes of one graph, and a token that is
given to two calls is shared by the nodes that they make.

Operations run in `Work`, which keeps the changes made before a failure.
-/

namespace Equate

/-- An expression of a workspace: its root in the graph, and the tokens it was read from. -/
structure Entry (α : Type) where
  root : Nat
  source : List (Token α)

/-- An equation of a workspace between two entries, with the occurrences counted when it was
formed. -/
structure EquationEntry where
  lhs : Nat
  rhs : Nat
  occurrences : List (String × Nat)

/-- The entries, and the graph that holds their trees. -/
structure Workspace (α : Type) where
  graph : Graph α
  entries : Array (Entry α)

/-- What is to be added to an expression: an operator, a token of the graph, or something else. -/
inductive Operation where
  | operator (op : Op)
  | token (t : Nat)
  | other

namespace Workspace

variable {α : Type}

def empty : Workspace α := ⟨.empty, #[]⟩

end Workspace

abbrev Work (α β : Type) := ExceptT Failure (StateM (Workspace α)) β

namespace Work

variable {α : Type}

def edit {β : Type} (e : Edit α β) : Work α β := do
  let w ← get
  let (result, g) := (e.run).run w.graph
  set { w with graph := g }
  match result with
  | .ok b => return b
  | .error f => throw f

/-- The value of an option that is never empty in a well-made workspace. -/
def found {β : Type} : Option β → Work α β
  | some b => return b
  | none => throw (.misuse .dangling)

def entry (id : Nat) : Work α (Entry α) := do found (← get).entries[id]?

def root (id : Nat) : Work α Nat := return (← entry id).root

def setRoot (id root : Nat) : Work α Unit :=
  modify fun w => { w with entries := w.entries.modify id ({ · with root }) }

def tree (id : Nat) : Work α (Tree (Token α)) := do
  let root ← root id
  found ((← get).graph.tree? root)

def rpn (id : Nat) : Work α (List (Token α)) := return (← tree id).toRpn

def newEntry (e : Entry α) : Work α Nat := do
  let w ← get
  set { w with entries := w.entries.push e }
  return w.entries.size

def newToken (t : Token α) : Work α Nat := do
  let w ← get
  set { w with graph := w.graph.newToken t }
  return w.graph.tokens.size

/-- Adds a node with the given links. -/
def place (n : Links) : Work α Nat := do
  let w ← get
  if fits : n.Fits w.graph.tokens.size w.graph.nodes.size then
    set { w with graph := w.graph.place n fits }
    return w.graph.nodes.size
  else throw (.misuse .dangling)

def addExpr (e : Expr α) : Work α Nat := do
  let w ← get
  let grown := w.graph.addExpr e
  set { w with graph := grown.graph }
  return grown.root

def addFormula (f : Formula α) : Work α Nat := do newEntry ⟨← addExpr f.expr, f.source⟩

def parse [OfScientific α] (text : String) : Work α Nat := do
  match Formula.parse text with
  | .ok f => addFormula f
  | .error e => throw (.expression e)

/-- A new entry that shares nothing with the old one. -/
def copy (id : Nat) : Work α Nat := do
  let e ← entry id
  let w ← get
  let grown ← found (w.graph.copy? e.root)
  set { w with graph := grown.graph }
  newEntry { e with root := grown.root }

/-- The operand with a token of the graph in place of one that is described. -/
def hold : Operand Nat α → Work α (Operand Nat α Nat)
  | .tree node => return .tree node
  | .token t => return .token (← newToken t)
  | .number v => return .number v
  | .integer n => return .integer n
  | .name x => return .name x
  | .boolean => return .boolean
  | .unusable kind => return .unusable kind

def operator : Operation → Work α Op
  | .operator op => return op
  | .token t => do
    match ← found (← get).graph.tokens[t]? with
    | .operator _ op => return op
    | _ => throw (.misuse .notAnOperatorToken)
  | .other => throw (.misuse .notAnOperation)

/-- The node of an operand, which may be a new leaf. -/
def operandNode [OfInteger α] (operand : Operand Nat α Nat) : Work α Nat := do
  match operand.read with
  | .ok (.tree node) => return node
  | .ok (.token t) => place ⟨t, none⟩
  | .ok (.new t) => place ⟨← newToken t, none⟩
  | .error m => throw (.misuse m)

/-- Puts a new node above the root of an entry, in the given slot, and another node. -/
def hang (id token : Nat) (slot : Slot) (operand : Nat) : Work α Unit := do
  let old ← root id
  let node ← place ⟨token, some <| match slot with
    | .left => (old, operand)
    | .right => (operand, old)⟩
  setRoot id node

/-- Puts an operator that was read from no text above the root of an entry and another node. -/
def introduce (id : Nat) (op : Op) (slot : Slot) (operand : Nat) : Work α Unit := do
  hang id (← newToken (.operator .introduced op)) slot operand

/-- Makes the entry's tree an operand of a new operation, in the slot of the given position, with
`operands` in the other slots. A token that is given becomes that of a new node, as it is. Nothing
changes unless all arguments fit. -/
def addOperation [OfInteger α] (id : Nat) (operation : Operation) (position : Int)
    (operands : List (Operand Nat α Nat)) : Work α Unit := do
  let op ← operator operation
  let some slot := Slot.ofIndex? position
    | throw (.misuse (.positionOutOfRange op.arity position))
  let [operand] := operands | throw (.misuse (.totalOperands op.arity))
  let node ← operandNode operand
  match operation with
  | .token t => hang id t slot node
  | _ => introduce id op slot node

def descend (node : Nat) : List Int → Work α Nat
  | [] => return node
  | i :: path => do
    match (← found ((← get).graph.node? node)).operands, Slot.ofPathIndex? i with
    | some (l, _), some .left => descend l path
    | some (_, r), some .right => descend r path
    | some _, none => throw (.misuse .noChildAt)
    | none, _ => throw (.misuse .noChildren)

/-- Forms an equation between two entries and counts the variables of both. -/
def newEquation (lhs rhs : Nat) : Work α EquationEntry := do
  return ⟨lhs, rhs, tally (Rpn.names (← rpn lhs) ++ Rpn.names (← rpn rhs))⟩

def copyEquation (eq : EquationEntry) : Work α EquationEntry := do
  let lhs ← copy eq.lhs
  let rhs ← copy eq.rhs
  newEquation lhs rhs

def sides (eq : EquationEntry) : Work α (Tree (Token α) × Tree (Token α)) :=
  return (← tree eq.lhs, ← tree eq.rhs)

section Arithmetic

variable [Arithmetic α]

def eval (env : Env α) (id : Nat) : Work α α := do
  match Rpn.eval env (← rpn id) with
  | .ok v => return v
  | .error e => throw e

def simplify (env : Env α) (id : Nat) : Work α Unit := do edit (Edit.simplify env (← root id))

def foldAt (env : Env α) (id : Nat) (path : List Int) : Work α Bool := do
  edit (Edit.foldNode env (← descend (← root id) path))

def residual (env : Env α) (eq : EquationEntry) : Work α α := do
  let a ← eval env eq.lhs
  let b ← eval env eq.rhs
  return Arithmetic.apply .sub a b

/-! ### Solving -/

/-- Adds an operation to the entry `other`, folds it if possible, and leaves the entry `unknown`
with `next` of the root's two operands. -/
def moveOver (env : Env α) (unknown other : Nat) (applied : Op) (place : Slot)
    (next operand : Nat) : Work α Unit := do
  introduce other applied place operand
  let _ ← edit (Edit.foldNode env (← root other))
  setRoot unknown next

/-- Takes operators off the entry `unknown` along the path to the variable `x` and applies their
inverses to the entry `other`, then evaluates `other`. What `view` sees of the workspace is kept
from before and after every step. -/
def isolateAlong {σ : Type} (view : Work α σ) (env : Env α) (x : String)
    (unknown other limit : Nat) (path : List Slot) (done : Nat) :
    Work α (α × List (SolveStep σ)) := do
  let here ← found ((← get).graph.node? (← root unknown))
  if here.isName x then return (← eval env other, [])
  else match path with
    | [] => throw (.expression (.notIsolated x done))
    | slot :: path =>
      if limit ≤ done then throw (.expression (.notIsolated x done))
      else match here with
        | .leaf (.operator _ op) =>
          if op.inverse?.isNone then throw (.expression (.noInverse x op))
          else throw (.misuse .childlessOperator)
        | .inner _ op l r =>
          match op.undo slot with
          | none => throw (.expression (.noInverse x op))
          | some (applied, place) => do
            let before ← view
            match slot with
            | .left => moveOver env unknown other applied place l r
            | .right => moveOver env unknown other applied place r l
            let after ← view
            let (v, steps) ← isolateAlong view env x unknown other limit path (done + 1)
            return (v, ⟨op, applied, slot, before, after⟩ :: steps)
        | _ => throw (.expression (.noParent x))
termination_by structural path

def pathTo? (x : String) (t : Tree (Token α)) : Option (List Slot) := do
  let path ← t.findPath? fun
    | .name y => y == x
    | _ => false
  path.mapM fun (i : Nat) => Slot.ofIndex? i

/-- Solves an equation for `x` and gives the value and the steps, with what `view` sees around
them. -/
def solve {σ : Type} (view : Work α σ) (env : Env α) (x : String) (eq : EquationEntry) :
    Work α (α × List (SolveStep σ)) := do
  match Equation.checkTarget env x eq.occurrences with
  | .error e => throw (.expression e)
  | .ok () => pure ()
  simplify env eq.lhs
  simplify env eq.rhs
  let (l, r) ← sides eq
  match pathTo? x l, pathTo? x r with
  | some (slot :: path), _ => isolateAlong view env x eq.lhs eq.rhs l.depth (slot :: path) 0
  | _, some (slot :: path) => isolateAlong view env x eq.rhs eq.lhs r.depth (slot :: path) 0
  | some [], _ => return (← eval env eq.rhs, [])
  | _, some [] => return (← eval env eq.lhs, [])
  | none, none => throw (.expression (.notFound x))

end Arithmetic

end Work

end Equate
