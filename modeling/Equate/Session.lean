import Equate.Summary
import Equate.Trace
import Equate.Workspace

/-!
# Sessions

A workspace of doubles whose expressions and equations have names, and the commands that work on
it. Two names may stand for one expression. A command that fails keeps the changes that it has
made, but gives no new name.
-/

namespace Equate

inductive Operation.Given where
  | operator (symbol : String)
  | parsedToken (symbol : String)
  | introducedToken (symbol : String)
  | literalToken
  | other

inductive SideGiven where
  | text (s : String)
  | slot (s : String)
  | unusable (kind : String)

/-- What can be done in a session. The first argument names what is worked on. -/
inductive Command where
  | parse (slot text : String)
  | copy (slot name : String)
  | simplify (slot : String) (bindings : Bindings Float)
  | eval (slot : String) (bindings : Bindings Float)
  | add (slot : String) (operation : Operation.Given) (position : Int)
      (operands : List (Offer Float))
  | fold (slot : String) (path : List Int) (bindings : Bindings Float)
  | equal (a b : String)
  | info (slot : String) (precision : Option Int)
  | equation (slot : String) (lhs rhs : SideGiven)
  | parseEquation (slot text : String)
  | copyEquation (slot name : String)
  | side (slot : String) (side : Side) (name : String)
  | solve (slot target : String) (bindings : Bindings Float) (trace : Bool)
  | occurrences (slot : String)
  | unknowns (slot : String) (bindings : Bindings Float)
  | residual (slot : String) (bindings : Bindings Float)
  | satisfied (slot : String) (bindings : Bindings Float)

inductive Answer where
  | nothing
  | done
  | truth (b : Bool)
  | value (v : Float)
  | solved (v : Float) (trace : Trace)
  | counts (occurrences : List (String × Nat))
  | names (xs : List String)
  | summary (s : Summary)

structure Session where
  workspace : Workspace Float
  exprs : List (String × Nat)
  equations : List (String × EquationEntry)

def assign {β : Type} (name : String) (v : β) : List (String × β) → List (String × β)
  | [] => [(name, v)]
  | (other, w) :: rest =>
    if other = name then (name, v) :: rest else (other, w) :: assign name v rest

abbrev Commanding (β : Type) := ExceptT Failure (StateM Session) β

namespace Session

def empty : Session := ⟨.empty, [], []⟩

def work {β : Type} (w : Work Float β) : Commanding β := do
  let s ← get
  let (result, workspace) := (w.run).run s.workspace
  set { s with workspace }
  match result with
  | .ok b => return b
  | .error f => throw f

def failIf {β : Type} : Except Misuse β → Commanding β
  | .ok b => return b
  | .error m => throw (.misuse m)

def expr (slot : String) : Commanding Nat := do
  match (← get).exprs.lookup slot with
  | some id => return id
  | none => throw (.misuse (.noSlot slot))

def equation (slot : String) : Commanding EquationEntry := do
  match (← get).equations.lookup slot with
  | some eq => return eq
  | none => throw (.misuse (.noSlot slot))

def nameExpr (slot : String) (id : Nat) : Commanding Unit :=
  modify fun s => { s with exprs := assign slot id s.exprs }

def nameEquation (slot : String) (eq : EquationEntry) : Commanding Unit :=
  modify fun s => { s with equations := assign slot eq s.equations }

def operator (symbol : String) : Commanding Op :=
  match Op.ofText? symbol with
  | some op => return op
  | none => throw (.misuse (.unknownOperator symbol))

/-- The operation that is described. Every description stands for a token of its own. -/
def operation : Operation.Given → Commanding Operation
  | .operator symbol => return .operator (← operator symbol)
  | .parsedToken symbol => do
    return .token (← work (Work.newToken (.operator .parsed (← operator symbol))))
  | .introducedToken symbol => do
    return .token (← work (Work.newToken (.operator .introduced (← operator symbol))))
  | .literalToken => return .token (← work (Work.newToken (.literal 1.0)))
  | .other => return .other

def equationText (sides : Tree (Token Float) × Tree (Token Float)) : String :=
  Rpn.infixText Number.short sides.1.toRpn ++ " = " ++ Rpn.infixText Number.short sides.2.toRpn

def sideExpr : SideGiven → Commanding Nat
  | .text s => work (Work.parse s)
  | .slot s => expr s
  | .unusable kind => throw (.misuse (.notASide kind))

def perform : Command → Commanding Answer
  | .parse slot text => do
    nameExpr slot (← work (Work.parse text))
    return .nothing
  | .copy slot name => do
    nameExpr name (← work (Work.copy (← expr slot)))
    return .nothing
  | .simplify slot bindings => do
    let id ← expr slot
    work (Work.simplify (← failIf bindings.check) id)
    return .done
  | .eval slot bindings => do
    let id ← expr slot
    return .value (← work (Work.eval (← failIf bindings.check) id))
  | .add slot given position offers => do
    let id ← expr slot
    let operation ← operation given
    let operands ← offers.mapM fun offer => do
      let operand ← offer.resolve (fun f => work (Work.addExpr f.expr))
        (fun name => do work (Work.root (← expr name)))
      work (Work.hold operand)
    work (Work.addOperation id operation position operands)
    return .done
  | .fold slot path bindings => do
    let id ← expr slot
    return .truth (← work (Work.foldAt (← failIf bindings.check) id path))
  | .equal a b => do
    let a ← work (Work.tree (← expr a))
    let b ← work (Work.tree (← expr b))
    return .truth (a == b)
  | .info slot precision => do
    let id ← expr slot
    let tree ← work (Work.tree id)
    return .summary (← failIf (Summary.of precision tree (← work (Work.entry id)).source))
  | .equation slot lhs rhs => do
    let lhs ← sideExpr lhs
    let rhs ← sideExpr rhs
    nameEquation slot (← work (Work.newEquation lhs rhs))
    return .nothing
  | .parseEquation slot text => do
    match cutAtEquals text with
    | .error e => throw (.expression e)
    | .ok (l, r) =>
      let lhs ← work (Work.parse l)
      let rhs ← work (Work.parse r)
      nameEquation slot (← work (Work.newEquation lhs rhs))
      return .nothing
  | .copyEquation slot name => do
    nameEquation name (← work (Work.copyEquation (← equation slot)))
    return .nothing
  | .side slot side name => do
    let eq ← equation slot
    nameExpr name (match side with | .left => eq.lhs | .right => eq.rhs)
    return .nothing
  | .solve slot target bindings trace => do
    let eq ← equation slot
    let x ← failIf (checkName target)
    let env ← failIf bindings.check
    if trace then
      let view := do return equationText (← Work.sides eq)
      let initial ← work view
      let (v, steps) ← work (Work.solve view env x eq)
      let final ← work view
      return .solved v ⟨some x, some initial, some final, some v, steps.map (·.trace id)⟩
    else
      let (v, _) ← work (Work.solve (pure ()) env x eq)
      return .value v
  | .occurrences slot => return .counts (← equation slot).occurrences
  | .unknowns slot bindings => do
    let eq ← equation slot
    let env ← failIf bindings.check
    return .names ((eq.occurrences.map (·.1)).filter fun x => (env x).isNone)
  | .residual slot bindings => do
    let eq ← equation slot
    return .value (← work (Work.residual (← failIf bindings.check) eq))
  | .satisfied slot bindings => do
    let eq ← equation slot
    let env ← failIf bindings.check
    let a ← work (Work.eval env eq.lhs)
    let b ← work (Work.eval env eq.rhs)
    return .truth (← failIf (isClose defaultTolerance defaultTolerance a b))

def step (c : Command) (s : Session) : Except Failure Answer × Session := (perform c).run.run s

def exprTexts (s : Session) : List (String × String) :=
  s.exprs.filterMap fun (name, id) => do
    let e ← s.workspace.entries[id]?
    let t ← s.workspace.graph.tree? e.root
    return (name, Rpn.infixText Number.short t.toRpn)

def equationTexts (s : Session) : List (String × String) :=
  s.equations.filterMap fun (name, eq) => do
    let l ← s.workspace.entries[eq.lhs]?
    let r ← s.workspace.entries[eq.rhs]?
    let lhs ← s.workspace.graph.tree? l.root
    let rhs ← s.workspace.graph.tree? r.root
    return (name, equationText (lhs, rhs))

end Session

end Equate
