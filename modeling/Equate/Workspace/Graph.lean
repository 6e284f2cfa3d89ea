import Equate.Formula

/-!
# Expression graphs

Expressions whose trees may share nodes, and whose nodes may share tokens. Nodes and tokens have an
identity, the number of those made before. A node refers to its token and to its operands by theirs.
Operands are made before the operation, so that following them always ends; the identity of a node
bounds the depth below it.

Folding takes the operands off a node and rewrites its token in place. This shows in every
expression that reaches the node, and also in every other node that has the token: a node that has
operands and a token that is no operator any more. An edit that fails keeps what it has done so far.
-/

namespace Equate

/-- What a node refers to: its token and, unless it is a leaf, its two operands. -/
structure Links where
  token : Nat
  operands : Option (Nat × Nat)

/-- Whether the token is one of so many, and the operands are older than the node `id`. -/
structure Links.Fits (tokens id : Nat) (n : Links) : Prop where
  token : n.token < tokens
  older : ∀ pair ∈ n.operands, pair.1 < id ∧ pair.2 < id

instance (tokens id : Nat) (n : Links) : Decidable (n.Fits tokens id) :=
  decidable_of_iff (n.token < tokens ∧ ∀ pair ∈ n.operands, pair.1 < id ∧ pair.2 < id)
    ⟨fun both => ⟨both.1, both.2⟩, fun fits => ⟨fits.token, fits.older⟩⟩

/-- A node as it stands, with its token. -/
structure Node (α : Type) where
  token : Token α
  operands : Option (Nat × Nat)

namespace Node

variable {α : Type}

@[match_pattern]
abbrev leaf (t : Token α) : Node α := ⟨t, none⟩

@[match_pattern]
abbrev inner (origin : Origin) (op : Op) (left right : Nat) : Node α :=
  ⟨.operator origin op, some (left, right)⟩

def isName (x : String) (n : Node α) : Bool :=
  match n.token with
  | .name y => y == x
  | _ => false

end Node

/-- Tokens and nodes in the order in which they were made. -/
structure Graph (α : Type) where
  tokens : Array (Token α)
  nodes : Array Links
  fits : ∀ id (inside : id < nodes.size), nodes[id].Fits tokens.size id

namespace Graph

variable {α : Type}

def empty : Graph α := ⟨#[], #[], fun id inside => absurd inside (Nat.not_lt_zero id)⟩

/-- The identity of a node's token. -/
def token? (g : Graph α) (id : Nat) : Option Nat := g.nodes[id]?.map (·.token)

def operands? (g : Graph α) (id : Nat) : Option (Nat × Nat) := g.nodes[id]?.bind (·.operands)

theorem older (g : Graph α) {id l r : Nat} (found : g.operands? id = some (l, r)) :
    l < id ∧ r < id := by
  obtain ⟨n, node, below⟩ := Option.bind_eq_some_iff.mp found
  obtain ⟨inside, rfl⟩ := Array.getElem?_eq_some_iff.mp node
  exact (g.fits id inside).older (l, r) below

def node? (g : Graph α) (id : Nat) : Option (Node α) := do
  let n ← g.nodes[id]?
  let t ← g.tokens[n.token]?
  return ⟨t, n.operands⟩

def leafToken? (g : Graph α) (id : Nat) : Option (Token α) :=
  match g.node? id with
  | some (.leaf t) => some t
  | _ => none

/-- The tree below a node, if it has no more than the given number of levels. -/
def treeWithin (g : Graph α) : (levels : Nat) → (id : Nat) → Option (Tree (Token α))
  | 0, _ => none
  | levels + 1, id => do
    let n ← g.node? id
    match n.operands with
    | none => return .leaf n.token
    | some (l, r) =>
      let left ← g.treeWithin levels l
      let right ← g.treeWithin levels r
      return .node n.token [left, right]

def tree? (g : Graph α) (id : Nat) : Option (Tree (Token α)) := g.treeWithin (id + 1) id

/-! ### New tokens and nodes -/

/-- A token that no node has yet. Its identity is the number of the old ones. -/
def newToken (g : Graph α) (t : Token α) : Graph α where
  tokens := g.tokens.push t
  nodes := g.nodes
  fits id inside := by
    obtain ⟨token, older⟩ := g.fits id inside
    exact ⟨by simpa using Nat.lt_succ_of_lt token, older⟩

/-- A node with the given links. Its identity is the number of the old ones. -/
def place (g : Graph α) (n : Links) (fits : n.Fits g.tokens.size g.nodes.size) : Graph α where
  tokens := g.tokens
  nodes := g.nodes.push n
  fits id inside := by
    rw [Array.getElem_push]
    split
    · exact g.fits id _
    · obtain rfl : id = g.nodes.size := by
        rw [Array.size_push] at inside
        omega
      exact fits

/-- A node with a new token. -/
def add (g : Graph α) (t : Token α) (operands : Option (Nat × Nat))
    (older : ∀ pair ∈ operands, pair.1 < g.nodes.size ∧ pair.2 < g.nodes.size) : Graph α :=
  (g.newToken t).place ⟨g.tokens.size, operands⟩ ⟨by simp [newToken], older⟩

theorem older_none {n : Nat} :
    ∀ pair ∈ (none : Option (Nat × Nat)), pair.1 < n ∧ pair.2 < n := by
  rintro _ ⟨⟩

/-- A graph that has come from another by new nodes, and one of the nodes. -/
structure Grown (g : Graph α) where
  graph : Graph α
  root : Nat
  inside : root < graph.nodes.size
  more : g.nodes.size ≤ graph.nodes.size

def Grown.leaf (g : Graph α) (t : Token α) : g.Grown where
  graph := g.add t none older_none
  root := g.nodes.size
  inside := by simp [add, newToken, place]
  more := by simp [add, newToken, place]

theorem Grown.older {g : Graph α} (left : g.Grown) (right : left.graph.Grown) :
    ∀ pair ∈ some (left.root, right.root),
      pair.1 < right.graph.nodes.size ∧ pair.2 < right.graph.nodes.size := by
  rintro pair ⟨⟩
  exact ⟨Nat.lt_of_lt_of_le left.inside right.more, right.inside⟩

/-- A new node above two that were made one after the other. -/
def Grown.join {g : Graph α} (left : g.Grown) (right : left.graph.Grown) (t : Token α) :
    g.Grown where
  graph := right.graph.add t (some (left.root, right.root)) (left.older right)
  root := right.graph.nodes.size
  inside := by simp [add, newToken, place]
  more := by
    have first := left.more
    have second := right.more
    simp only [add, newToken, place, Array.size_push]
    omega

def addExpr (g : Graph α) : Expr α → g.Grown
  | .node o op l r =>
    let left := g.addExpr l
    left.join (left.graph.addExpr r) (.operator o op)
  | e => .leaf g e.token

/-- New nodes and tokens for all that is within some levels below a node. A node that is reached
twice is copied twice, and so is a token. -/
def copyWithin (g : Graph α) : (levels : Nat) → (id : Nat) → Option g.Grown
  | 0, _ => none
  | levels + 1, id => do
    let n ← g.node? id
    match n.operands with
    | none => return .leaf g n.token
    | some (l, r) =>
      let left ← g.copyWithin levels l
      let right ← left.graph.copyWithin levels r
      return left.join right n.token

def copy? (g : Graph α) (id : Nat) : Option g.Grown := g.copyWithin (id + 1) id

/-! ### Folds -/

/-- Makes a node a leaf, and its token a literal. -/
def fold (g : Graph α) (id : Nat) (v : α) : Graph α where
  tokens :=
    match g.token? id with
    | some t => g.tokens.setIfInBounds t (.literal v)
    | none => g.tokens
  nodes := g.nodes.modify id ({ · with operands := none })
  fits other inside := by
    have size : (match g.token? id with
        | some t => g.tokens.setIfInBounds t (.literal v)
        | none => g.tokens).size = g.tokens.size := by
      split <;> simp
    obtain ⟨token, older⟩ := g.fits other (by simpa using inside)
    rw [size, Array.getElem_modify]
    split
    · exact ⟨token, older_none⟩
    · exact ⟨token, older⟩

end Graph

abbrev Edit (α β : Type) := ExceptT Failure (StateM (Graph α)) β

namespace Edit

variable {α : Type} [Arithmetic α]

/-- Turns an operation on two leaves into its value. Tells whether there was something to fold:
an operation on variables without values is left alone. -/
def foldNode (env : Env α) (id : Nat) : Edit α Bool := do
  let g ← get
  match g.node? id with
  | some (.leaf (.operator ..)) => throw (.misuse .childlessOperator)
  | some (.inner o op l r) =>
    match g.leafToken? l, g.leafToken? r with
    | some a, some b =>
      match Rpn.eval env [a, b, .operator o op] with
      | .ok v =>
        set (g.fold id v)
        return true
      | .error (.expression (.unresolved _)) => return false
      | .error e => throw e
    | _, _ => return false
  | _ => return false

/-- How much the visits that are pending still cost. What is below a node has smaller identities,
so that opening it costs less than leaving it to be opened. -/
def pendingCost : (pending : List (Nat × Bool)) → Nat
  | [] => 0
  | (_, true) :: pending => 1 + pendingCost pending
  | (id, false) :: pending => Nat.pow 3 (id + 1) + pendingCost pending

theorem pendingCost_open {l r id : Nat} (left : l < id) (right : r < id)
    (pending : List (Nat × Bool)) :
    pendingCost ((l, false) :: (r, false) :: (id, true) :: pending) <
      pendingCost ((id, false) :: pending) := by
  have costLeft : 3 ^ (l + 1) ≤ 3 ^ id := Nat.pow_le_pow_right (by decide) left
  have costRight : 3 ^ (r + 1) ≤ 3 ^ id := Nat.pow_le_pow_right (by decide) right
  have cost : 1 < 3 ^ id := Nat.one_lt_pow (by omega) (by decide)
  simp only [pendingCost, Nat.pow_eq, Nat.pow_succ] at *
  omega

theorem pendingCost_lt (id : Nat) (opened : Bool) (pending : List (Nat × Bool)) :
    pendingCost pending < pendingCost ((id, opened) :: pending) := by
  cases opened with
  | true => exact Nat.lt_add_of_pos_left Nat.one_pos
  | false => exact Nat.lt_add_of_pos_left (Nat.pow_pos (by decide))

/-- Folds the pending nodes and all nodes below them, operands first. Those of a marked node are on
the list before it. Whether another one has operands is seen when its turn comes. -/
def simplifyFrom (env : Env α) : (pending : List (Nat × Bool)) → Edit α Unit
  | [] => return
  | (id, true) :: pending => do
    let _ ← foldNode env id
    simplifyFrom env pending
  | (id, false) :: pending => do
    let g ← get
    match _ : g.operands? id with
    | none =>
      let _ ← foldNode env id
      simplifyFrom env pending
    | some (l, r) => simplifyFrom env ((l, false) :: (r, false) :: (id, true) :: pending)
termination_by pending => pendingCost pending
decreasing_by
  · exact pendingCost_lt id true pending
  · exact pendingCost_lt id false pending
  · rename_i below
    obtain ⟨left, right⟩ := g.older below
    exact pendingCost_open left right pending

def simplify (env : Env α) (id : Nat) : Edit α Unit := simplifyFrom env [(id, false)]

end Edit

end Equate
