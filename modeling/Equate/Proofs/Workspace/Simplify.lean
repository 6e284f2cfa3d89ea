import Equate.Proofs.Expr.Folded
import Equate.Proofs.Workspace.Reading
import Equate.Workspace

/-!
# Folding in place

A fold goes through the nodes with a list of those that are still to be visited. It does what
recursion over the graph would do (`simplify_eq`). In a graph where every node has a token of its
own, this leaves the tree that `Expr.simplify` gives, although the nodes are changed while they are
visited and may be shared (`simplify_reads`). So no fold fails, and the tree keeps its value under
every wider environment (`simplify_keeps_values`). The entry that a formula gets holds its tree
(`addFormula_gains`), and so does a copy (`copy_gains`).
-/

namespace Equate

variable {α : Type}

namespace Graph

/-! ### Folding a node -/

theorem token?_fold (g : Graph α) (id : Nat) (v : α) (other : Nat) :
    (g.fold id v).token? other = g.token? other := by
  rw [token?, token?, fold, Array.getElem?_modify]
  split
  · cases g.nodes[other]? <;> rfl
  · rfl

theorem operands?_fold (g : Graph α) (id : Nat) (v : α) (other : Nat) :
    (g.fold id v).operands? other = if other = id then none else g.operands? other := by
  rw [operands?, operands?, fold, Array.getElem?_modify]
  by_cases here : other = id
  · subst here
    cases linked : g.nodes[other]? <;> simp
  · rw [if_neg here, if_neg (Ne.symm here)]

theorem tokens_fold (g : Graph α) (id : Nat) (v : α) {t : Nat} (known : t < g.tokens.size) :
    (g.fold id v).tokens[t]? =
      some (if g.token? id = some t then .literal v else g.tokens[t]) := by
  simp only [fold]
  cases g.token? id with
  | none => simp [known]
  | some target =>
    by_cases same : target = t
    · simp [same, known]
    · simp [same, known]

/-- A fold rewrites a token, wherever it is, and takes the operands off one node. -/
theorem node?_fold (g : Graph α) (id : Nat) (v : α) (other : Nat) :
    (g.fold id v).node? other = (g.node? other).map fun n =>
      ⟨if g.token? other = g.token? id then .literal v else n.token,
        if other = id then none else n.operands⟩ := by
  cases linked : g.nodes[other]? with
  | none => simp [node?, fold, Array.getElem?_modify, linked]
  | some links =>
    obtain ⟨inside, same⟩ := Array.getElem?_eq_some_iff.mp linked
    have known : links.token < g.tokens.size := same ▸ (g.fits other inside).token
    have held : g.token? other = some links.token := by rw [token?, linked]; rfl
    have found : g.node? other = some ⟨g.tokens[links.token], links.operands⟩ := by
      simp [node?, linked, known]
    have left : (g.fold id v).nodes[other]? =
        some ⟨links.token, if other = id then none else links.operands⟩ := by
      rw [fold, Array.getElem?_modify, linked]
      by_cases here : other = id
      · simp [here]
      · simp [here, Ne.symm here]
    rw [found, held, node?, left, Option.bind_eq_bind, Option.bind_some, tokens_fold _ _ _ known]
    simp [eq_comm]

theorem node?_fold_self {g : Graph α} {id : Nat} {n : Node α} (found : g.node? id = some n)
    (v : α) : (g.fold id v).node? id = some (.leaf (.literal v)) := by
  simp [node?_fold, found]

theorem node?_fold_other {g : Graph α} {id other : Nat} (own : g.OwnTokens) (apart : other ≠ id)
    (v : α) : (g.fold id v).node? other = g.node? other := by
  rw [node?_fold]
  cases found : g.node? other with
  | none => rfl
  | some n =>
    simp [apart, own.token?_ne (lt_size_of_node? found) apart]

theorem OwnTokens.of_tokens {g g' : Graph α} (own : g.OwnTokens)
    (same : ∀ id, g'.token? id = g.token? id) : g'.OwnTokens := by
  intro id id' t held held'
  rw [same] at held held'
  exact own id id' t held held'

variable [Arithmetic α]

/-! ### Graphs folded in part -/

/-- What folds may do to a graph: nodes become literals, and every expression is folded in part. -/
structure Folded (env : Env α) (g g' : Graph α) : Prop where
  tokens : ∀ id, g'.token? id = g.token? id
  nodes : ∀ id, g'.node? id = g.node? id ∨ ∃ v, g'.node? id = some (.leaf (.literal v))
  exprs : ∀ levels id e, g.Reads levels id e → ∃ e', g'.Reads levels id e' ∧ e.Folded env e'

variable {env : Env α} {g : Graph α} {id : Nat}

theorem Folded.refl (g : Graph α) : g.Folded env g where
  tokens _ := rfl
  nodes _ := Or.inl rfl
  exprs _ _ e reads := ⟨e, reads, .same e⟩

theorem Folded.trans {g g' g'' : Graph α} (first : g.Folded env g') (second : g'.Folded env g'') :
    g.Folded env g'' where
  tokens id := (second.tokens id).trans (first.tokens id)
  nodes id := by
    rcases second.nodes id with same | literal
    · rw [same]
      exact first.nodes id
    · exact Or.inr literal
  exprs levels id e reads := by
    obtain ⟨e', reads', folded⟩ := first.exprs levels id e reads
    obtain ⟨e'', reads'', folded'⟩ := second.exprs levels id e' reads'
    exact ⟨e'', reads'', folded.trans folded'⟩

theorem OwnTokens.folded {g' : Graph α} (own : g.OwnTokens) (folded : g.Folded env g') :
    g'.OwnTokens :=
  own.of_tokens folded.tokens

/-- An operation that has a value is replaced by it, in all expressions that reach the node. -/
theorem folded_fold (own : g.OwnTokens) {o : Origin} {op : Op} {left right : Nat} {a b : Token α}
    {v : α} (found : g.node? id = some (.inner o op left right))
    (leafLeft : g.leafToken? left = some a) (leafRight : g.leafToken? right = some b)
    (value : Rpn.eval env [a, b, .operator o op] = .ok v) : g.Folded env (g.fold id v) where
  tokens := g.token?_fold id v
  nodes other := by
    by_cases here : other = id
    · exact Or.inr ⟨v, here ▸ node?_fold_self found v⟩
    · exact Or.inl (node?_fold_other own here v)
  exprs levels other e reads := by
    induction levels generalizing other e with
    | zero => cases reads
    | succ levels ih =>
      by_cases here : other = id
      · subst here
        rcases reads.cases with ⟨t, leaf, -⟩ | ⟨_, _, l, r, _, _, rfl, inner, readLeft, readRight⟩
        · rw [found] at leaf
          cases leaf
        · rw [found] at inner
          cases inner
          obtain ⟨isLeft, rfl⟩ := isLeaf_of_leafToken? readLeft leafLeft
          obtain ⟨isRight, rfl⟩ := isLeaf_of_leafToken? readRight leafRight
          rw [Expr.eval_tokens isLeft isRight] at value
          exact ⟨.lit v, reads_leaf (node?_fold_self found v) rfl rfl, .value value⟩
      · have kept := node?_fold_other own here v
        rcases reads.cases with ⟨t, leaf, isLeaf, token⟩ |
          ⟨o', op', l, r, left', right', rfl, inner, readLeft, readRight⟩
        · exact ⟨e, reads_leaf (kept.trans leaf) isLeaf token, .same e⟩
        · obtain ⟨l', readLeft', foldedLeft⟩ := ih left' l readLeft
          obtain ⟨r', readRight', foldedRight⟩ := ih right' r readRight
          exact ⟨.node o' op' l' r', reads_inner (kept.trans inner) readLeft' readRight',
            .operands o' op' foldedLeft foldedRight⟩

/-- Once the operands are folded, folding the root remains, unless the whole was folded before by
way of a shared node. -/
theorem Folded.reads_simplified {g' : Graph α} {levels : Nat} {o : Origin} {op : Op}
    {left right : Nat} {l r : Expr α} (folded : g.Folded env g')
    (found : g.node? id = some (.inner o op left right))
    (reads : g.Reads (levels + 1) id (.node o op l r))
    (readLeft : g'.Reads levels left (l.simplify env))
    (readRight : g'.Reads levels right (r.simplify env)) :
    ∃ e, g'.Reads (levels + 1) id e ∧ e.foldRoot env = (Expr.node o op l r).simplify env := by
  rcases folded.nodes id with same | ⟨v, literal⟩
  · exact ⟨_, reads_inner (same.trans found) readLeft readRight, rfl⟩
  · obtain ⟨e, reads', partly⟩ := folded.exprs _ _ _ reads
    rcases reads'.cases with ⟨t, leaf, isLeaf, token⟩ | ⟨_, _, _, _, _, _, -, inner, -⟩
    · rw [literal] at leaf
      cases leaf
      cases e with
      | lit w => exact ⟨_, reads', partly.simplify⟩
      | _ => cases token
    · rw [literal] at inner
      cases inner

end Graph

/-! ### Edits -/

section Effect

variable {σ β γ : Type}

def effect (change : ExceptT Failure (StateM σ) β) (s : σ) : Except Failure β × σ :=
  change.run.run s

theorem effect_bind {change : ExceptT Failure (StateM σ) β}
    {next : β → ExceptT Failure (StateM σ) γ} {s s' : σ} {b : β}
    (done : effect change s = (.ok b, s')) : effect (change >>= next) s = effect (next b) s' := by
  unfold effect at done ⊢
  rw [ExceptT.run_bind, StateT.run_bind, done]
  rfl

theorem effect_get (s : σ) : effect get s = (.ok s, s) := rfl

end Effect

namespace Edit

variable [Arithmetic α] {env : Env α} {g : Graph α} {levels id : Nat} {e : Expr α}

/-! ### Folding one node -/

theorem foldNode_other {n : Node α} (found : g.node? id = some n)
    (other : n.token.isOperator = false) : effect (foldNode env id) g = (.ok false, g) := by
  rw [foldNode, effect_bind (effect_get g), found]
  obtain ⟨t, operands⟩ := n
  cases t with
  | operator => cases other
  | _ => rfl

section Inner

variable {o : Origin} {op : Op} {left right : Nat} {a b : Token α}
  (found : g.node? id = some (.inner o op left right))
include found

theorem foldNode_inner (inner : g.leafToken? left = none ∨ g.leafToken? right = none) :
    effect (foldNode env id) g = (.ok false, g) := by
  rw [foldNode, effect_bind (effect_get g), found]
  rcases inner with inner | inner
  · simp only [inner]
    rfl
  · simp only [inner]
    cases g.leafToken? left <;> rfl

theorem foldNode_value {v : α} (leafLeft : g.leafToken? left = some a)
    (leafRight : g.leafToken? right = some b)
    (value : Rpn.eval env [a, b, .operator o op] = .ok v) :
    effect (foldNode env id) g = (.ok true, g.fold id v) := by
  rw [foldNode, effect_bind (effect_get g), found]
  simp only [leafLeft, leafRight, value]
  rfl

theorem foldNode_unresolved {x : String} (leafLeft : g.leafToken? left = some a)
    (leafRight : g.leafToken? right = some b)
    (unbound : Rpn.eval env [a, b, .operator o op] = .error (.expression (.unresolved x))) :
    effect (foldNode env id) g = (.ok false, g) := by
  rw [foldNode, effect_bind (effect_get g), found]
  simp only [leafLeft, leafRight, unbound]
  rfl

end Inner

theorem foldNode_reads_leaves (own : g.OwnTokens) (env : Env α) {o : Origin} {op : Op}
    {left right : Nat} {l r : Expr α} (found : g.node? id = some (.inner o op left right))
    (readLeft : g.Reads levels left l) (readRight : g.Reads levels right r)
    (isLeft : l.isLeaf = true) (isRight : r.isLeaf = true) :
    ∃ b g', effect (foldNode env id) g = (.ok b, g') ∧
      g'.Reads (levels + 1) id ((Expr.node o op l r).foldRoot env) ∧ g.Folded env g' := by
  have leafLeft := Graph.leafToken?_of_isLeaf readLeft isLeft
  have leafRight := Graph.leafToken?_of_isLeaf readRight isRight
  have tokens : Rpn.eval env [l.token, r.token, .operator o op] = (Expr.node o op l r).eval env :=
    Expr.eval_tokens isLeft isRight
  have outcome := (Expr.node o op l r).eval_of_unbound? env
  cases unbound : (Expr.node o op l r).unbound? env with
  | none =>
    rw [unbound] at outcome
    obtain ⟨v, value⟩ := outcome
    have folded := Graph.folded_fold own found leafLeft leafRight (tokens.trans value)
    rw [Expr.foldRoot_of_leaves isLeft isRight value]
    exact ⟨true, _, foldNode_value found leafLeft leafRight (tokens.trans value),
      Graph.reads_leaf (Graph.node?_fold_self found v) rfl rfl, folded⟩
  | some x =>
    rw [unbound] at outcome
    obtain ⟨present, missing⟩ := Expr.unbound?_eq_some unbound
    rw [Expr.foldRoot_of_unbound present missing]
    exact ⟨false, g, foldNode_unresolved found leafLeft leafRight (tokens.trans outcome),
      Graph.reads_inner found readLeft readRight, .refl g⟩

/-- Folding a node folds the root of what it holds. -/
theorem foldNode_reads (own : g.OwnTokens) (env : Env α) (reads : g.Reads levels id e) :
    ∃ b g', effect (foldNode env id) g = (.ok b, g') ∧
      g'.Reads levels id (e.foldRoot env) ∧ g.Folded env g' := by
  cases levels with
  | zero => cases reads
  | succ levels =>
    rcases reads.cases with ⟨t, found, leaf, rfl⟩ |
      ⟨o, op, l, r, left, right, rfl, found, readLeft, readRight⟩
    · have other : e.token.isOperator = false := by
        cases e with
        | node => cases leaf
        | _ => rfl
      have kept : e.foldRoot env = e := by
        cases e with
        | node => cases leaf
        | _ => rfl
      rw [kept]
      exact ⟨false, g, foldNode_other found other, reads, .refl g⟩
    · by_cases leaves : l.isLeaf = true ∧ r.isLeaf = true
      · exact foldNode_reads_leaves own env found readLeft readRight leaves.1 leaves.2
      · have inner : g.leafToken? left = none ∨ g.leafToken? right = none := by
          rcases Classical.not_and_iff_not_or_not.mp leaves with inner | inner
          · exact Or.inl (Graph.leafToken?_of_inner readLeft inner)
          · exact Or.inr (Graph.leafToken?_of_inner readRight inner)
        rw [Expr.foldRoot_of_inner leaves]
        exact ⟨false, g, foldNode_inner found inner, reads, .refl g⟩

/-! ### Folding all nodes -/

/-- Folds all nodes within some levels below a node by recursion, operands first. -/
def simplifyWithin (env : Env α) : (levels : Nat) → (id : Nat) → Edit α Unit
  | 0, _ => return
  | levels + 1, id => do
    match (← get).operands? id with
    | some (l, r) =>
      simplifyWithin env levels l
      simplifyWithin env levels r
    | none => pure ()
    let _ ← foldNode env id

/-- The first of the pending nodes is folded with all that is below it, then come the others. -/
theorem simplifyFrom_eq (env : Env α) (pending : List (Nat × Bool)) (inside : id < levels) :
    simplifyFrom env ((id, false) :: pending) =
      simplifyWithin env levels id >>= fun _ => simplifyFrom env pending := by
  induction levels generalizing id pending with
  | zero => exact absurd inside id.not_lt_zero
  | succ levels ih =>
    have same (g : Graph α) : effect (simplifyFrom env ((id, false) :: pending)) g =
        effect (simplifyWithin env (levels + 1) id >>= fun _ => simplifyFrom env pending) g := by
      rw [simplifyFrom, simplifyWithin, bind_assoc, effect_bind (effect_get g),
        effect_bind (effect_get g)]
      split
      · rename_i below
        simp only [below, pure_bind, bind_assoc]
      · rename_i l r below
        obtain ⟨olderLeft, olderRight⟩ := g.older below
        -- the operands are older, so the recursion has levels enough for each of them
        rw [ih _ (by omega), ih _ (by omega), simplifyFrom]
        simp only [below, bind_assoc, pure_bind]
    exact funext same

theorem simplify_eq (env : Env α) (id : Nat) :
    simplify env id = simplifyWithin env (id + 1) id := by
  rw [simplify, simplifyFrom_eq env [] (Nat.lt_succ_self id), simplifyFrom]
  exact bind_pure _

theorem simplifyWithin_reads (own : g.OwnTokens) (env : Env α) (reads : g.Reads levels id e) :
    ∃ g', effect (simplifyWithin env levels id) g = (.ok (), g') ∧
      g'.Reads levels id (e.simplify env) ∧ g.Folded env g' := by
  induction levels generalizing g id e with
  | zero => cases reads
  | succ levels ih =>
    rw [simplifyWithin, effect_bind (effect_get g)]
    rcases reads.cases with ⟨t, found, leaf, rfl⟩ |
      ⟨o, op, l, r, left, right, rfl, found, readLeft, readRight⟩
    · rw [Graph.operands?_of_node? found]
      obtain ⟨b, g', done, reads', folded⟩ := foldNode_reads own env reads
      have kept : e.foldRoot env = e.simplify env := by
        cases e with
        | node => cases leaf
        | _ => rfl
      refine ⟨g', ?_, kept ▸ reads', folded⟩
      exact effect_bind done
    · rw [Graph.operands?_of_node? found]
      obtain ⟨g₁, doneLeft, readLeft₁, folded₁⟩ := ih own readLeft
      have own₁ := own.folded folded₁
      obtain ⟨r₁, readRight₁, partly⟩ := folded₁.exprs _ _ _ readRight
      obtain ⟨g₂, doneRight, readRight₂, folded₂⟩ := ih own₁ readRight₁
      rw [partly.simplify] at readRight₂
      -- what folding the right operand did to the left one was done already
      obtain ⟨l₂, readLeft₂, again⟩ := folded₂.exprs _ _ _ readLeft₁
      obtain rfl := again.eq_of_simplify
      have folded := folded₁.trans folded₂
      obtain ⟨e₂, reads₂, whole⟩ := folded.reads_simplified found reads readLeft₂ readRight₂
      obtain ⟨b, g', done, reads', last⟩ := foldNode_reads (own₁.folded folded₂) env reads₂
      rw [whole] at reads'
      refine ⟨g', ?_, reads', folded.trans last⟩
      exact (effect_bind doneLeft).trans ((effect_bind doneRight).trans (effect_bind done))

/-- Folding all nodes below a node folds what it stands for. -/
theorem simplify_reads (own : g.OwnTokens) (env : Env α) (shown : g.tree? id = some e.toTree) :
    ∃ g', effect (simplify env id) g = (.ok (), g') ∧ g'.tree? id = some (e.simplify env).toTree ∧
      g.Folded env g' := by
  rw [simplify_eq]
  exact simplifyWithin_reads own env shown

end Edit

/-! ### Entries -/

def Workspace.Holds (w : Workspace α) (id : Nat) (e : Expr α) : Prop :=
  ∃ entry, w.entries[id]? = some entry ∧ w.graph.tree? entry.root = some e.toTree

/-- What a new entry does to a workspace: the others keep their expressions. -/
structure Workspace.Gains (w w' : Workspace α) (e : Expr α) : Prop where
  holds : w'.Holds w.entries.size e
  own : w'.graph.OwnTokens
  kept : ∀ id e, w.Holds id e → id ≠ w.entries.size ∧ w'.Holds id e

theorem Workspace.gains_push {w : Workspace α} {g : Graph α} {entry : Entry α} {e : Expr α}
    (own : g.OwnTokens) (read : g.tree? entry.root = some e.toTree)
    (extended : g.Extends w.graph) : w.Gains ⟨g, w.entries.push entry⟩ e := by
  refine ⟨⟨entry, Array.getElem?_push_size, read⟩, own, ?_⟩
  rintro id e ⟨old, found, read⟩
  have inside : id < w.entries.size := (Array.getElem?_eq_some_iff.mp found).1
  refine ⟨Nat.ne_of_lt inside, old, ?_, extended.treeWithin read (Nat.le_refl _)⟩
  rw [Array.getElem?_push, if_neg (Nat.ne_of_lt inside), found]

namespace Work

variable {w : Workspace α} {id : Nat} {e : Expr α}

/-- A formula that is read or made gets an entry that holds its expression. -/
theorem addFormula_gains (own : w.graph.OwnTokens) (f : Formula α) :
    ∃ w', effect (addFormula f) w = (.ok w.entries.size, w') ∧ w.Gains w' f.expr :=
  ⟨_, rfl, Workspace.gains_push (own.addExpr f.expr) (w.graph.addExpr_tree? f.expr)
    (w.graph.extends_addExpr f.expr)⟩

theorem effect_entry {entry : Entry α} (found : w.entries[id]? = some entry) :
    effect (Work.entry id) w = (.ok entry, w) := by
  rw [Work.entry, effect_bind (effect_get w), found]
  rfl

theorem effect_root {entry : Entry α} (found : w.entries[id]? = some entry) :
    effect (root id) w = (.ok entry.root, w) := by
  rw [root, effect_bind (effect_entry found)]
  rfl

theorem effect_place {n : Links} (fits : n.Fits w.graph.tokens.size w.graph.nodes.size) :
    effect (place n) w = (.ok w.graph.nodes.size, { w with graph := w.graph.place n fits }) := by
  rw [place, effect_bind (effect_get w), dif_pos fits]
  rfl

theorem effect_place_unfit {n : Links}
    (unfit : ¬ n.Fits w.graph.tokens.size w.graph.nodes.size) :
    effect (place n) w = (.error (.misuse .dangling), w) := by
  rw [place, effect_bind (effect_get w), dif_neg unfit]
  rfl

/-- The tree of a copy is the copy of the tree. -/
theorem effect_copy {entry : Entry α} {t : Tree (Token α)} (found : w.entries[id]? = some entry)
    (shown : w.graph.tree? entry.root = some t) :
    ∃ new : w.graph.Grown, effect (copy id) w =
        (.ok w.entries.size, ⟨new.graph, w.entries.push { entry with root := new.root }⟩) ∧
      new.graph.tree? new.root = some t.copy ∧ new.graph.Extends w.graph ∧
      (w.graph.OwnTokens → new.graph.OwnTokens) := by
  obtain ⟨new, copied, shown'⟩ := Graph.copyWithin_tree? shown
  have copied' : w.graph.copy? entry.root = some new := copied
  refine ⟨new, ?_, shown', Graph.copyWithin_extends copied⟩
  rw [copy, effect_bind (effect_entry found), effect_bind (effect_get w), copied']
  rfl

theorem copy_gains (own : w.graph.OwnTokens) (holds : w.Holds id e) :
    ∃ w', effect (copy id) w = (.ok w.entries.size, w') ∧ w.Gains w' e := by
  obtain ⟨entry, found, read⟩ := holds
  obtain ⟨new, copied, read', extended, own'⟩ := effect_copy found read
  rw [Tree.copy_eq] at read'
  exact ⟨_, copied, Workspace.gains_push (own' own) read' extended⟩

theorem effect_edit {β : Type} {edit : Edit α β} {g : Graph α} {b : β}
    (done : effect edit w.graph = (.ok b, g)) :
    effect (Work.edit edit) w = (.ok b, { w with graph := g }) := by
  rw [Work.edit, effect_bind (effect_get w)]
  unfold effect at done ⊢
  rw [done]
  rfl

theorem effect_tree_of_entry {entry : Entry α} {t : Tree (Token α)}
    (found : w.entries[id]? = some entry) (shown : w.graph.tree? entry.root = some t) :
    effect (tree id) w = (.ok t, w) := by
  rw [tree, effect_bind (effect_root found), effect_bind (effect_get w), shown]
  rfl

theorem effect_tree (holds : w.Holds id e) : effect (tree id) w = (.ok e.toTree, w) := by
  obtain ⟨entry, found, read⟩ := holds
  exact effect_tree_of_entry found read

theorem effect_rpn_of_tree {t : Tree (Token α)} (shown : effect (tree id) w = (.ok t, w)) :
    effect (rpn id) w = (.ok t.toRpn, w) := by
  rw [rpn, effect_bind shown]
  rfl

theorem effect_rpn (holds : w.Holds id e) : effect (rpn id) w = (.ok e.toRpn, w) := by
  rw [effect_rpn_of_tree (effect_tree holds), e.toRpn_toTree]

variable [Arithmetic α] {env wide : Env α}

theorem effect_eval (holds : w.Holds id e) : effect (eval env id) w = (e.eval env, w) := by
  rw [eval, effect_bind (effect_rpn holds), ← Expr.eval]
  cases e.eval env <;> rfl

/-- Where every node has a token of its own, folding an entry never fails, and leaves the tree with
every operation that has a value replaced. Under every environment with the same values and perhaps
more, the entry has the value that it had before, or lacks one for the same variable. -/
theorem simplify_keeps_values (own : w.graph.OwnTokens) (holds : w.Holds id e)
    (extended : wide.Extends env) :
    ∃ w', effect (simplify env id) w = (.ok (), w') ∧ w'.Holds id (e.simplify env) ∧
      (effect (eval wide id) w').1 = (effect (eval wide id) w).1 ∧
      match e.unbound? wide with
      | none => ∃ v, (effect (eval wide id) w).1 = .ok v
      | some x => (effect (eval wide id) w).1 = .error (.expression (.unresolved x)) := by
  have before : (effect (eval wide id) w).1 = e.eval wide := by rw [effect_eval holds]
  obtain ⟨entry, found, read⟩ := holds
  obtain ⟨g, done, reads, -⟩ := Edit.simplify_reads own env read
  have held : Workspace.Holds { w with graph := g } id (e.simplify env) := ⟨entry, found, reads⟩
  refine ⟨{ w with graph := g }, ?_, held, ?_, ?_⟩
  · rw [simplify, effect_bind (effect_root found)]
    exact effect_edit done
  · rw [before, effect_eval held]
    exact e.eval_simplify extended
  · rw [before]
    exact e.eval_of_unbound? wide

/-- `y * ((x + 2) - (x + 2))`, where the two operands of the difference are one node. -/
theorem simplify_keeps_value_of_product :
    let tokens : Array (Token Float) := #[.name "x", .literal 2, .operator .parsed .add,
      .operator .parsed .sub, .name "y", .operator .parsed .mul]
    let nodes : Array Links := #[⟨0, none⟩, ⟨1, none⟩, ⟨2, some (0, 1)⟩, ⟨3, some (2, 2)⟩,
      ⟨4, none⟩, ⟨5, some (4, 3)⟩]
    let w : Workspace Float := ⟨⟨tokens, nodes, by decide⟩, #[⟨5, []⟩]⟩
    let sum : Expr Float := .node .parsed .add (.var "x") (.lit 2)
    let e : Expr Float := .node .parsed .mul (.var "y") (.node .parsed .sub sum sum)
    let env : Env Float := fun x => if x = "x" then some 3 else none
    let wide : Env Float := fun x => if x = "y" then some 7 else env x
    w.graph.OwnTokens ∧ w.Holds 0 e ∧ wide.Extends env ∧
      ∃ w', effect (simplify env 0) w = (.ok (), w') ∧
        (effect (eval wide 0) w').1 = (effect (eval wide 0) w).1 := by
  intro tokens nodes w sum e env wide
  have own : w.graph.OwnTokens := Graph.ownTokens_of_nodup (by decide)
  have holds : w.Holds 0 e := ⟨⟨5, []⟩, rfl, rfl⟩
  have extended : wide.Extends env := by
    intro x v bound
    by_cases other : x = "y"
    · subst other
      cases bound
    · simp only [wide, if_neg other]
      exact bound
  obtain ⟨w', done, -, same, -⟩ := simplify_keeps_values own holds extended
  exact ⟨own, holds, extended, w', done, same⟩

end Work

end Equate
