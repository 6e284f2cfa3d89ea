import Equate.Proofs.Expr.Value
import Equate.Proofs.Tree.Recursion
import Equate.Workspace.Graph

/-!
# Expressions in a graph

`Graph.Reads` tells which expression a node of a graph stands for. New nodes disturb none of the
old ones (`Extends`), and those made for an expression stand for it (`addExpr_tree?`). They have
tokens that no other node has, so that in a graph where every node has a token of its own
(`OwnTokens`) this stays so. A copy of a node has the copy of its tree, which need not be that of an
expression (`copyWithin_tree?`).
-/

namespace Equate

variable {α : Type}

/-! ### Trees of expressions -/

namespace Expr

theorem eq_node_of_toTree {e : Expr α} {t : Token α} {left right : Tree (Token α)}
    (same : .node t [left, right] = e.toTree) :
    ∃ o op l r, e = node o op l r ∧ t = .operator o op ∧ left = l.toTree ∧ right = r.toTree := by
  cases e with
  | lit v => cases same
  | var x => cases same
  | node o op l r =>
    cases same
    exact ⟨o, op, l, r, rfl, rfl, rfl, rfl⟩

theorem toTree_leaf {e : Expr α} {t : Token α} (same : .leaf t = e.toTree) :
    e.isLeaf = true ∧ t = e.token := by
  cases e with
  | lit v => cases same; exact ⟨rfl, rfl⟩
  | var x => cases same; exact ⟨rfl, rfl⟩
  | node o op l r => cases same

theorem toRpn_of_isLeaf {e : Expr α} (leaf : e.isLeaf = true) : e.toRpn = [e.token] := by
  cases e with
  | node => cases leaf
  | _ => rfl

theorem eval_tokens [Arithmetic α] {env : Env α} {o : Origin} {op : Op} {l r : Expr α}
    (left : l.isLeaf = true) (right : r.isLeaf = true) :
    Rpn.eval env [l.token, r.token, .operator o op] = (node o op l r).eval env := by
  rw [eval, toRpn_node, toRpn_of_isLeaf left, toRpn_of_isLeaf right]
  rfl

end Expr

/-! ### Nodes -/

namespace Graph

variable {g g' g'' : Graph α} {levels id : Nat} {e : Expr α} {n : Node α}

theorem exists_node (inside : id < g.nodes.size) : ∃ n, g.node? id = some n := by
  have known := (g.fits id inside).token
  exact ⟨⟨g.tokens[g.nodes[id].token], g.nodes[id].operands⟩, by simp [node?, inside, known]⟩

theorem lt_size_of_node? (found : g.node? id = some n) : id < g.nodes.size := by
  obtain ⟨links, linked, -⟩ := Option.bind_eq_some_iff.mp found
  exact (Array.getElem?_eq_some_iff.mp linked).1

theorem operands?_of_node? (found : g.node? id = some n) : g.operands? id = n.operands := by
  obtain ⟨links, linked, found⟩ := Option.bind_eq_some_iff.mp found
  obtain ⟨t, -, made⟩ := Option.bind_eq_some_iff.mp found
  cases made
  rw [operands?, linked]
  rfl

theorem older_of_node? (found : g.node? id = some n) {l r : Nat}
    (below : n.operands = some (l, r)) : l < id ∧ r < id :=
  g.older ((operands?_of_node? found).trans below)

theorem token?_lt {t : Nat} (held : g.token? id = some t) :
    id < g.nodes.size ∧ t < g.tokens.size := by
  obtain ⟨links, linked, rfl⟩ := Option.map_eq_some_iff.mp held
  obtain ⟨inside, rfl⟩ := Array.getElem?_eq_some_iff.mp linked
  exact ⟨inside, (g.fits id inside).token⟩

theorem exists_token (inside : id < g.nodes.size) : ∃ t, g.token? id = some t :=
  ⟨g.nodes[id].token, by simp [token?, inside]⟩

/-- Whether no token is held by two nodes. -/
def OwnTokens (g : Graph α) : Prop :=
  ∀ id id' t, g.token? id = some t → g.token? id' = some t → id = id'

theorem ownTokens_of_nodup (apart : (g.nodes.toList.map Links.token).Nodup) : g.OwnTokens := by
  intro id id' t held held'
  have listed (id : Nat) : (g.nodes.toList.map Links.token)[id]? = g.token? id := by simp [token?]
  have inside := (token?_lt held).1
  exact (List.getElem?_inj (by simpa using inside) apart).mp (by rw [listed, listed, held, held'])

theorem ownTokens_empty : (empty : Graph α).OwnTokens := ownTokens_of_nodup List.nodup_nil

theorem OwnTokens.token?_ne (own : g.OwnTokens) {other : Nat} (inside : other < g.nodes.size)
    (apart : other ≠ id) : g.token? other ≠ g.token? id := by
  obtain ⟨t, held⟩ := exists_token inside
  exact fun same => apart (own other id t held (same ▸ held))

/-! ### Trees -/

theorem treeWithin_cases {t : Tree (Token α)} (shown : g.treeWithin (levels + 1) id = some t) :
    ∃ n, g.node? id = some n ∧ ((n.operands = none ∧ t = .leaf n.token) ∨
      ∃ l r left right, n.operands = some (l, r) ∧ g.treeWithin levels l = some left ∧
        g.treeWithin levels r = some right ∧ t = .node n.token [left, right]) := by
  obtain ⟨n, found, shown⟩ := Option.bind_eq_some_iff.mp shown
  refine ⟨n, found, ?_⟩
  split at shown
  · rename_i below
    exact Or.inl ⟨below, (Option.some.inj shown).symm⟩
  · rename_i l r below
    obtain ⟨left, showsLeft, shown⟩ := Option.bind_eq_some_iff.mp shown
    obtain ⟨right, showsRight, shown⟩ := Option.bind_eq_some_iff.mp shown
    exact Or.inr ⟨l, r, left, right, below, showsLeft, showsRight, (Option.some.inj shown).symm⟩

theorem treeWithin_leaf {t : Token α} (found : g.node? id = some (.leaf t)) (levels : Nat) :
    g.treeWithin (levels + 1) id = some (.leaf t) := by
  simp [treeWithin, found]

theorem treeWithin_node {t : Token α} {l r : Nat} {left right : Tree (Token α)}
    (found : g.node? id = some ⟨t, some (l, r)⟩) (showsLeft : g.treeWithin levels l = some left)
    (showsRight : g.treeWithin levels r = some right) :
    g.treeWithin (levels + 1) id = some (.node t [left, right]) := by
  simp [treeWithin, found, showsLeft, showsRight]

/-- Whether the nodes of one graph are in another as they were, with the tokens that they had. -/
structure Extends (g' g : Graph α) : Prop where
  node? : ∀ id n, g.node? id = some n → g'.node? id = some n
  token? : ∀ id t, g.token? id = some t → g'.token? id = some t

theorem Extends.refl (g : Graph α) : g.Extends g := ⟨fun _ _ found => found, fun _ _ held => held⟩

theorem Extends.trans (second : g''.Extends g') (first : g'.Extends g) : g''.Extends g where
  node? id n found := second.node? id n (first.node? id n found)
  token? id t held := second.token? id t (first.token? id t held)

theorem Extends.treeWithin (extended : g'.Extends g) {levels' : Nat} {t : Tree (Token α)}
    (shown : g.treeWithin levels id = some t) (le : levels ≤ levels') :
    g'.treeWithin levels' id = some t := by
  induction levels generalizing id t levels' with
  | zero => cases shown
  | succ levels ih =>
    obtain ⟨levels', rfl⟩ := Nat.exists_eq_add_of_le' (Nat.lt_of_lt_of_le (Nat.succ_pos levels) le)
    have le : levels ≤ levels' := Nat.le_of_succ_le_succ le
    obtain ⟨⟨t, operands⟩, found, ⟨below, rfl⟩ | ⟨l, r, left, right, below, showsLeft, showsRight,
      rfl⟩⟩ := treeWithin_cases shown
    · cases below
      exact treeWithin_leaf (extended.node? _ _ found) levels'
    · cases below
      exact treeWithin_node (extended.node? _ _ found) (ih showsLeft le) (ih showsRight le)

/-- The identity of a node bounds the levels below it. -/
theorem tree?_of_treeWithin {t : Tree (Token α)} (shown : g.treeWithin levels id = some t) :
    g.tree? id = some t := by
  suffices enough : g.treeWithin (id + 1) id = some t from enough
  induction levels generalizing id t with
  | zero => cases shown
  | succ levels ih =>
    obtain ⟨⟨t, operands⟩, found, ⟨below, rfl⟩ | ⟨l, r, left, right, below, showsLeft, showsRight,
      rfl⟩⟩ := treeWithin_cases shown
    · cases below
      exact treeWithin_leaf found id
    · cases below
      obtain ⟨olderLeft, olderRight⟩ := older_of_node? found rfl
      exact treeWithin_node found ((Extends.refl g).treeWithin (ih showsLeft) olderLeft)
        ((Extends.refl g).treeWithin (ih showsRight) olderRight)

/-- Whether the node holds the expression, within so many levels. -/
def Reads (g : Graph α) (levels id : Nat) (e : Expr α) : Prop :=
  g.treeWithin levels id = some e.toTree

theorem Reads.cases (reads : g.Reads (levels + 1) id e) :
    (∃ t, g.node? id = some (.leaf t) ∧ e.isLeaf = true ∧ t = e.token) ∨
    ∃ o op l r left right, e = .node o op l r ∧ g.node? id = some (.inner o op left right) ∧
      g.Reads levels left l ∧ g.Reads levels right r := by
  obtain ⟨⟨t, operands⟩, found, ⟨below, same⟩ | ⟨left, right, tl, tr, below, readLeft, readRight,
    same⟩⟩ := treeWithin_cases reads
  · cases below
    obtain ⟨leaf, token⟩ := Expr.toTree_leaf same.symm
    exact Or.inl ⟨t, found, leaf, token⟩
  · cases below
    obtain ⟨o, op, l, r, rfl, token, rfl, rfl⟩ := Expr.eq_node_of_toTree same.symm
    cases token
    exact Or.inr ⟨o, op, l, r, left, right, rfl, found, readLeft, readRight⟩

theorem reads_leaf {t : Token α} (found : g.node? id = some (.leaf t)) (leaf : e.isLeaf = true)
    (token : t = e.token) : g.Reads (levels + 1) id e := by
  have shown := treeWithin_leaf found levels
  cases e with
  | node => cases leaf
  | _ => rw [Reads, shown, token]; rfl

theorem reads_inner {o : Origin} {op : Op} {left right : Nat} {l r : Expr α}
    (found : g.node? id = some (.inner o op left right)) (readLeft : g.Reads levels left l)
    (readRight : g.Reads levels right r) : g.Reads (levels + 1) id (.node o op l r) :=
  treeWithin_node found readLeft readRight

theorem Reads.extended (reads : g.Reads levels id e) (extended : g'.Extends g) :
    g'.Reads levels id e :=
  extended.treeWithin reads (Nat.le_refl levels)

theorem Reads.mono (reads : g.Reads levels id e) {levels' : Nat} (le : levels ≤ levels') :
    g.Reads levels' id e :=
  (Extends.refl g).treeWithin reads le

theorem Reads.tree? (reads : g.Reads levels id e) : g.tree? id = some e.toTree :=
  tree?_of_treeWithin reads

theorem Reads.lt_size (reads : g.Reads levels id e) : id < g.nodes.size := by
  cases levels with
  | zero => cases reads
  | succ levels =>
    obtain ⟨n, found, -⟩ := treeWithin_cases reads
    exact lt_size_of_node? found

theorem node?_of_leafToken? {t : Token α} (found : g.leafToken? id = some t) :
    g.node? id = some (.leaf t) := by
  unfold leafToken? at found
  split at found
  · rename_i t' leaf
    cases found
    exact leaf
  · cases found

theorem isLeaf_of_leafToken? {t : Token α} (reads : g.Reads levels id e)
    (found : g.leafToken? id = some t) : e.isLeaf = true ∧ t = e.token := by
  cases levels with
  | zero => cases reads
  | succ levels =>
    rcases reads.cases with ⟨t', leaf, isLeaf, token⟩ | ⟨o, op, l, r, left, right, rfl, inner, -, -⟩
    · simp only [leafToken?, leaf, Option.some.injEq] at found
      exact ⟨isLeaf, found.symm.trans token⟩
    · simp [leafToken?, inner] at found

theorem leafToken?_of_isLeaf (reads : g.Reads levels id e) (leaf : e.isLeaf = true) :
    g.leafToken? id = some e.token := by
  cases levels with
  | zero => cases reads
  | succ levels =>
    rcases reads.cases with ⟨t, found, -, token⟩ | ⟨o, op, l, r, left, right, rfl, -, -, -⟩
    · simp [leafToken?, found, token]
    · cases leaf

theorem leafToken?_of_inner (reads : g.Reads levels id e) (inner : ¬ e.isLeaf = true) :
    g.leafToken? id = none := by
  cases found : g.leafToken? id with
  | none => rfl
  | some t => exact absurd (isLeaf_of_leafToken? reads found).1 inner

/-! ### New tokens and nodes -/

theorem node?_newToken (g : Graph α) (t : Token α) (id : Nat) :
    (g.newToken t).node? id = g.node? id := by
  rw [node?, node?, newToken]
  cases linked : g.nodes[id]? with
  | none => rfl
  | some links =>
    obtain ⟨inside, rfl⟩ := Array.getElem?_eq_some_iff.mp linked
    have known := (g.fits id inside).token
    simp [Array.getElem?_push, Nat.ne_of_lt known]

theorem extends_newToken (g : Graph α) (t : Token α) : (g.newToken t).Extends g where
  node? id _ found := (g.node?_newToken t id).trans found
  token? _ _ held := held

section Place

variable (g) (links : Links) (fits : links.Fits g.tokens.size g.nodes.size) (id : Nat)

theorem token?_place : (g.place links fits).token? id =
    if id = g.nodes.size then some links.token else g.token? id := by
  rw [token?, token?, place, Array.getElem?_push]
  split <;> rfl

theorem operands?_place : (g.place links fits).operands? id =
    if id = g.nodes.size then links.operands else g.operands? id := by
  rw [operands?, operands?, place, Array.getElem?_push]
  split <;> rfl

theorem node?_place : (g.place links fits).node? id =
    if id = g.nodes.size then g.tokens[links.token]?.map (⟨·, links.operands⟩) else g.node? id := by
  rw [node?, node?, place, Array.getElem?_push]
  split
  · exact Option.map_eq_bind.symm
  · rfl

variable {g links fits id} in
theorem node?_place_cases (found : (g.place links fits).node? id = some n) :
    (∃ t, g.tokens[links.token]? = some t ∧ n = ⟨t, links.operands⟩) ∨ g.node? id = some n := by
  rw [node?_place] at found
  split at found
  · obtain ⟨t, known, rfl⟩ := Option.map_eq_some_iff.mp found
    exact Or.inl ⟨t, known, rfl⟩
  · exact Or.inr found

theorem extends_place : (g.place links fits).Extends g where
  node? id _ found := by
    rw [node?_place, if_neg (Nat.ne_of_lt (lt_size_of_node? found)), found]
  token? id t held := by
    rw [token?_place, if_neg (Nat.ne_of_lt (token?_lt held).1), held]

end Place

section Add

variable (g) (t : Token α) (operands : Option (Nat × Nat))
  (older : ∀ pair ∈ operands, pair.1 < g.nodes.size ∧ pair.2 < g.nodes.size) (id : Nat)

theorem token?_add : (g.add t operands older).token? id =
    if id = g.nodes.size then some g.tokens.size else g.token? id :=
  token?_place ..

theorem node?_add : (g.add t operands older).node? id =
    if id = g.nodes.size then some ⟨t, operands⟩ else g.node? id := by
  rw [add, node?_place, node?_newToken]
  simp [newToken]

theorem node?_add_self : (g.add t operands older).node? g.nodes.size = some ⟨t, operands⟩ :=
  (g.node?_add t operands older _).trans (if_pos rfl)

theorem extends_add : (g.add t operands older).Extends g :=
  (extends_place ..).trans (g.extends_newToken t)

end Add

theorem OwnTokens.place (own : g.OwnTokens) (links : Links)
    (unused : ∀ id, g.token? id ≠ some links.token)
    (fits : links.Fits g.tokens.size g.nodes.size) : (g.place links fits).OwnTokens := by
  intro id id' t held held'
  rw [token?_place] at held held'
  split at held <;> split at held'
  · rename_i here here'
    exact here.trans here'.symm
  · cases held
    exact absurd held' (unused id')
  · cases held'
    exact absurd held (unused id)
  · exact own id id' t held held'

theorem token?_ne_new (g : Graph α) (id : Nat) : g.token? id ≠ some g.tokens.size :=
  fun held => Nat.lt_irrefl _ (token?_lt held).2

/-- The token of a new node is a new one. -/
theorem OwnTokens.add (own : g.OwnTokens) (t : Token α) (operands : Option (Nat × Nat))
    (older : ∀ pair ∈ operands, pair.1 < g.nodes.size ∧ pair.2 < g.nodes.size) :
    (g.add t operands older).OwnTokens := by
  have before : (g.newToken t).OwnTokens := own
  exact before.place ⟨g.tokens.size, operands⟩ g.token?_ne_new _

namespace Grown

theorem extends_leaf (g : Graph α) (t : Token α) : (leaf g t).graph.Extends g :=
  extends_add g t none older_none

theorem tree?_leaf (g : Graph α) (t : Token α) :
    (leaf g t).graph.tree? (leaf g t).root = some (.leaf t) :=
  treeWithin_leaf (node?_add_self g t none older_none) _

variable (left : g.Grown) (right : left.graph.Grown) (t : Token α)

theorem extends_join (first : left.graph.Extends g) (second : right.graph.Extends left.graph) :
    (left.join right t).graph.Extends g :=
  (extends_add _ _ _ (left.older right)).trans (second.trans first)

/-- What a new node stands for is made of what the two below it stand for. -/
theorem tree?_join {s s' : Tree (Token α)} (showsLeft : left.graph.tree? left.root = some s)
    (second : right.graph.Extends left.graph)
    (showsRight : right.graph.tree? right.root = some s') :
    (left.join right t).graph.tree? (left.join right t).root = some (.node t [s, s']) := by
  have last : (left.join right t).graph.Extends right.graph :=
    extends_add _ _ _ (left.older right)
  exact treeWithin_node (node?_add_self _ _ _ (left.older right))
    ((last.trans second).treeWithin showsLeft (Nat.lt_of_lt_of_le left.inside right.more))
    (last.treeWithin showsRight right.inside)

end Grown

/-! ### Expressions and copies -/

theorem extends_addExpr (g : Graph α) (e : Expr α) : (g.addExpr e).graph.Extends g := by
  induction e generalizing g with
  | lit v => exact Grown.extends_leaf g _
  | var x => exact Grown.extends_leaf g _
  | node o op l r ihl ihr => exact Grown.extends_join _ _ _ (ihl g) (ihr _)

theorem addExpr_tree? (g : Graph α) (e : Expr α) :
    (g.addExpr e).graph.tree? (g.addExpr e).root = some e.toTree := by
  induction e generalizing g with
  | lit v => exact Grown.tree?_leaf g _
  | var x => exact Grown.tree?_leaf g _
  | node o op l r ihl ihr =>
    exact Grown.tree?_join _ _ _ (ihl g) (extends_addExpr _ r) (ihr _)

theorem OwnTokens.addExpr (own : g.OwnTokens) (e : Expr α) : (g.addExpr e).graph.OwnTokens := by
  induction e generalizing g with
  | lit v => exact own.add _ none older_none
  | var x => exact own.add _ none older_none
  | node o op l r ihl ihr => exact (ihr (ihl own)).add _ _ (Grown.older _ _)

/-- A copy of a node is made of new nodes, and their tokens are new. -/
theorem copyWithin_extends {new : g.Grown} (copied : g.copyWithin levels id = some new) :
    new.graph.Extends g ∧ (g.OwnTokens → new.graph.OwnTokens) := by
  induction levels generalizing g id new with
  | zero => cases copied
  | succ levels ih =>
    obtain ⟨n, -, copied⟩ := Option.bind_eq_some_iff.mp copied
    split at copied
    · cases copied
      exact ⟨Grown.extends_leaf g _, fun own => own.add _ none older_none⟩
    · obtain ⟨left, copiedLeft, copied⟩ := Option.bind_eq_some_iff.mp copied
      obtain ⟨right, copiedRight, copied⟩ := Option.bind_eq_some_iff.mp copied
      cases copied
      obtain ⟨first, own⟩ := ih copiedLeft
      obtain ⟨second, own'⟩ := ih copiedRight
      exact ⟨Grown.extends_join _ _ _ first second,
        fun before => (own' (own before)).add _ _ (left.older right)⟩

/-- What the copy of a node stands for is the copy of its tree. -/
theorem copyWithin_tree? {t : Tree (Token α)} (shown : g.treeWithin levels id = some t) :
    ∃ new : g.Grown, g.copyWithin levels id = some new ∧
      new.graph.tree? new.root = some t.copy := by
  rw [t.copy_eq]
  induction levels generalizing g id t with
  | zero => cases shown
  | succ levels ih =>
    obtain ⟨⟨p, operands⟩, found, ⟨below, rfl⟩ | ⟨l, r, left, right, below, showsLeft, showsRight,
      rfl⟩⟩ := treeWithin_cases shown
    · cases below
      refine ⟨.leaf g p, ?_, Grown.tree?_leaf g p⟩
      simp [copyWithin, found]
    · cases below
      obtain ⟨first, copiedLeft, newLeft⟩ := ih showsLeft
      have kept := (copyWithin_extends copiedLeft).1.treeWithin showsRight (Nat.le_refl levels)
      obtain ⟨second, copiedRight, newRight⟩ := ih kept
      have extended := (copyWithin_extends copiedRight).1
      refine ⟨first.join second p, ?_, first.tree?_join second p newLeft extended newRight⟩
      simp [copyWithin, found, copiedLeft, copiedRight]

end Graph

end Equate
