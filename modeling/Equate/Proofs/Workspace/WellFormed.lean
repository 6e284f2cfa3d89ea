import Equate.Proofs.Tree.Traversal
import Equate.Proofs.Workspace.Changes

/-!
# Well-formed trees

A tree of tokens is well-formed if literals and variables stand at its leaves and operators, with as
many children as they have operands, at all other nodes. Such trees are those of the expressions
(`Tree.wellFormed_iff`), so a pass over their postfix lists meets nothing that it is not meant for:
it could check every token and every count of operands and would not fail (`Rpn.Regular`). However
a workspace comes about, there are no other trees in it if each token is given once:
`made_wellFormed`.
-/

namespace Equate

variable {α β : Type}

/-! ### Trees of expressions -/

namespace Tree

structure Fits (node : Tree (Token α)) : Prop where
  leaf : node.isLeaf = true ↔ node.payload.isLiteral = true ∨ node.payload.isVariable = true
  inner : ¬ node.isLeaf = true → node.payload.isOperator = true ∧
    node.children.length = node.payload.arity ∧ node.payload.arity = 2

def WellFormed (t : Tree (Token α)) : Prop := ∀ node ∈ t.walk, node.Fits

theorem wellFormed_iff_children {t : Tree (Token α)} :
    t.WellFormed ↔ t.Fits ∧ ∀ child ∈ t.children, child.WellFormed := by
  rw [WellFormed, walk_eq, List.forall_mem_cons, List.forall_mem_flatMap]
  rfl

theorem wellFormed_toTree (e : Expr α) : e.toTree.WellFormed := by
  rw [wellFormed_iff_children]
  induction e with
  | lit v => exact ⟨⟨iff_of_true rfl (Or.inl rfl), absurd rfl⟩, nofun⟩
  | var x => exact ⟨⟨iff_of_true rfl (Or.inr rfl), absurd rfl⟩, nofun⟩
  | node o op l r ihl ihr =>
    refine ⟨⟨by simp [Expr.toTree, isLeaf, payload, Token.isLiteral, Token.isVariable],
      fun _ => ⟨rfl, rfl, rfl⟩⟩, ?_⟩
    rw [Expr.toTree, children, List.forall_mem_cons, List.forall_mem_singleton]
    exact ⟨wellFormed_iff_children.mpr ihl, wellFormed_iff_children.mpr ihr⟩

theorem WellFormed.exists_expr : (t : Tree (Token α)) → t.WellFormed → ∃ e : Expr α, t = e.toTree
  | .leaf p, wellFormed => by
    have operand := (wellFormed_iff_children.mp wellFormed).1.leaf.mp rfl
    cases p with
    | literal v => exact ⟨.lit v, rfl⟩
    | name x => exact ⟨.var x, rfl⟩
    | _ => rcases operand with other | other <;> cases other
  | .node p [left, right], wellFormed => by
    obtain ⟨fits, below⟩ := wellFormed_iff_children.mp wellFormed
    obtain ⟨operator, -⟩ := fits.inner Bool.false_ne_true
    obtain ⟨l, rfl⟩ := exists_expr left (below left (by simp [children]))
    obtain ⟨r, rfl⟩ := exists_expr right (below right (by simp [children]))
    cases p with
    | operator o op => exact ⟨.node o op l r, rfl⟩
    | _ => cases operator
  | .node p [], wellFormed | .node p [_], wellFormed | .node p (_ :: _ :: _ :: _), wellFormed => by
    obtain ⟨-, count, two⟩ := (wellFormed_iff_children.mp wellFormed).1.inner Bool.false_ne_true
    simp [children, two] at count

theorem wellFormed_iff {t : Tree (Token α)} : t.WellFormed ↔ ∃ e : Expr α, t = e.toTree := by
  constructor
  · exact WellFormed.exists_expr t
  · rintro ⟨e, rfl⟩
    exact wellFormed_toTree e

end Tree

/-! ### Passes with checks -/

namespace Rpn

section Checks

variable {m : Type → Type} [Monad m] (leaf : Token α → m β) (apply : Op → List β → m β)

def checkedLeaf (t : Token α) : OptionT m β :=
  if t.isLiteral || t.isVariable then .lift (leaf t) else failure

def checkedApply (op : Op) (operands : List β) : OptionT m β :=
  if operands.length = op.arity then .lift (apply op operands) else failure

end Checks

/-- Whether every pass over the tokens, such as those that evaluate and that write a text, ends with
one result, and with the same one when it makes checks on its way, which do not fail. -/
structure Regular (tokens : List (Token α)) : Prop where
  single : ∀ {m : Type → Type} [Monad m] [LawfulMonad m] {β : Type} (leaf : Token α → m β)
    (apply : Op → List β → m β), ∃ result, reduceM leaf apply tokens = (fun b => [b]) <$> result
  checked : ∀ {m : Type → Type} [Monad m] [LawfulMonad m] {β : Type} (leaf : Token α → m β)
    (apply : Op → List β → m β),
    (reduceM (checkedLeaf leaf) (checkedApply apply) tokens).run =
      some <$> reduceM leaf apply tokens

theorem readM_checked {m : Type → Type} [Monad m] [LawfulMonad m] (leaf : Token α → m β)
    (apply : Op → List β → m β) (e : Expr α) :
    e.readM (checkedLeaf leaf) (checkedApply apply) = OptionT.lift (e.readM leaf apply) := by
  induction e with
  | lit v => rfl
  | var x => rfl
  | node o op l r ihl ihr =>
    rw [Expr.readM, Expr.readM, ihl, ihr]
    apply OptionT.ext
    simp [checkedApply, Op.arity]

theorem regular_toRpn (e : Expr α) : Regular e.toRpn where
  single leaf apply := ⟨_, e.reduceM_toRpn leaf apply⟩
  checked leaf apply := by
    rw [Expr.reduceM_toRpn, Expr.reduceM_toRpn, readM_checked]
    simp

end Rpn

/-! ### Trees of a workspace -/

/-- Whether passes over a tree read it as a whole, and only a variable can keep it from a value. -/
structure Tree.Readable [Arithmetic α] (env : Env α) (t : Tree (Token α)) : Prop where
  regular : Rpn.Regular t.toRpn
  value : (∃ v, Rpn.eval env t.toRpn = .ok v) ∨
    ∃ x, Rpn.eval env t.toRpn = .error (.expression (.unresolved x))

theorem Tree.WellFormed.readable [Arithmetic α] {t : Tree (Token α)} (wellFormed : t.WellFormed)
    (env : Env α) : t.Readable env := by
  obtain ⟨e, rfl⟩ := wellFormed.exists_expr
  constructor
  · rw [Expr.toRpn_toTree]
    exact Rpn.regular_toRpn e
  · rw [Expr.toRpn_toTree]
    have value := e.eval_of_unbound? env
    split at value
    · exact Or.inl value
    · exact Or.inr ⟨_, value⟩

namespace Work

variable [Arithmetic α] [OfScientific α] [OfInteger α]

/-- In every workspace that comes about, the trees of all entries and of all nodes are well-formed
and can be read, and no node makes folding fail. Only an operation could change that which is added
with a token that is in a tree already, and reading, copying, folding and solving give no tokens
(`tokensOnce_of_operators`). -/
theorem made_wellFormed (changes : List (Change α)) (spare : TokensOnce .empty changes)
    (env : Env α) :
    let w := made changes
    (∀ id < w.entries.size, ∃ t, effect (tree id) w = (.ok t, w) ∧ t.WellFormed ∧
      t.Readable env) ∧
    ∀ node < w.graph.nodes.size, ∃ t, w.graph.tree? node = some t ∧ t.WellFormed ∧
      t.Readable env ∧ ∃ folded, (effect (Edit.foldNode env node) w.graph).1 = .ok folded := by
  intro w
  have parted : w.Parted (.whole True) := made_parted fun _ => spare
  constructor
  · intro id inside
    obtain ⟨e, holds⟩ := parted.holds trivial inside
    have wellFormed := Tree.wellFormed_toTree e
    exact ⟨e.toTree, effect_tree holds, wellFormed, wellFormed.readable env⟩
  · intro node inside
    obtain ⟨e, reads⟩ := parted.graph.reads trivial inside
    have wellFormed := Tree.wellFormed_toTree e
    exact ⟨e.toTree, reads, wellFormed, wellFormed.readable env, _, Edit.foldNode_answer reads env⟩

/-- Solving `1 - x ^ 2 = 4 / y` moves the `1` over and stops at the power. The right side and the
node of the difference, which no entry has any more, are well-formed nevertheless. -/
theorem made_wellFormed_of_power :
    let env : Env Float := fun x => if x = "y" then some 2 else none
    let changes : List (Change Float) := [.parse "1 - x ^ 2", .parse "4 / y", .copy 0,
      .step (.solve true env "x" ⟨0, 1, [("x", 1), ("y", 1)]⟩), .step (.fold env 2 [1])]
    let w := made changes
    TokensOnce .empty changes ∧ 1 < w.entries.size ∧ 4 < w.graph.nodes.size ∧
      (∃ t, effect (tree 1) w = (.ok t, w) ∧ t.WellFormed ∧ t.Readable env) ∧
      ∃ t, w.graph.tree? 4 = some t ∧ t.WellFormed ∧ t.Readable env ∧
        ∃ folded, (effect (Edit.foldNode env 4) w.graph).1 = .ok folded := by
  intro env changes w
  have spare : TokensOnce .empty changes :=
    tokensOnce_of_operators _ (by simp [changes, Change.given?, Step.given?])
  have entry : 1 < w.entries.size := by decide +kernel
  have node : 4 < w.graph.nodes.size := by decide +kernel
  obtain ⟨entries, nodes⟩ := made_wellFormed changes spare env
  exact ⟨spare, entry, node, entries 1 entry, nodes 4 node⟩

end Work

end Equate
