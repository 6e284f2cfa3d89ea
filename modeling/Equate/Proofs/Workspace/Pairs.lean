import Equate.Proofs.Solving.Course
import Equate.Proofs.Tree.Recursion
import Equate.Proofs.Workspace.FoldOrder

/-!
# Pairs of entries

Two entries of a workspace hold two expressions, and every node has a token of its own. Their trees
may share nodes with each other and with further expressions, and still folding them and moving an
operand from one to the other does to the pair what it does to the expressions (`simplify_both`,
`moveOver_pair`). The way to a variable is found in the tree of an expression as it is in the
expression.
-/

namespace Equate

variable {α : Type}

/-! ### Searching the tree of an expression -/

namespace Expr

theorem firstPlace?_toTree {x : String} {p : Token α → Bool}
    (seeks : ∀ t, p t = true ↔ t = .name x) (e : Expr α) (place : List Nat) :
    Tree.firstPlace? p (e.toTree.preorderAt place) =
      (e.pathTo? x).map fun path => place ++ path.map Slot.index := by
  have other {t : Token α} (unlike : t ≠ .name x) : p t = false :=
    Bool.eq_false_iff.mpr (mt (seeks t).mp unlike)
  have leaf (place : List Nat) (t : Token α) :
      Tree.firstPlace? p ((Tree.leaf t).preorderAt place) = if p t then some place else none :=
    Tree.firstPlace?_cons place _ []
  induction e generalizing place with
  | lit v => simp [toTree, token, leaf, pathTo?, other]
  | var y =>
    by_cases same : y = x
    · simp [toTree, token, leaf, pathTo?, same, (seeks (.name x)).mpr]
    · simp [toTree, token, leaf, pathTo?, same, other]
  | node o op l r ihl ihr =>
    rw [toTree, Tree.preorderAt, Tree.firstPlace?_cons, if_neg (by simp [Tree.payload, other])]
    simp only [Tree.preorderBelow, Tree.firstPlace?_append, ihl, ihr, pathTo?]
    cases l.pathTo? x with
    | some path => simp [Slot.index]
    | none => cases r.pathTo? x <;> simp [Slot.index]

theorem pathTo?_toTree (x : String) (e : Expr α) : Work.pathTo? x e.toTree = e.pathTo? x := by
  have slots (path : List Slot) :
      (path.map Slot.index).mapM (fun (i : Nat) => Slot.ofIndex? i) = some path := by
    induction path with
    | nil => rfl
    | cons slot path ih =>
      rw [List.map_cons, List.mapM_cons, ih]
      cases slot <;> rfl
  have searched {p : Token α → Bool} (seeks : ∀ t, p t = true ↔ t = .name x) :
      (e.toTree.findPath? p).bind (fun path => path.mapM fun (i : Nat) => Slot.ofIndex? i) =
        e.pathTo? x := by
    rw [Tree.findPath?_eq, Tree.preorder, firstPlace?_toTree seeks]
    cases e.pathTo? x with
    | none => rfl
    | some path => exact slots path
  refine searched fun t => ?_
  cases t <;> simp

theorem depth_toTree (e : Expr α) : e.toTree.depth = e.depth := by
  rw [Tree.depth_eq]
  induction e with
  | lit v => rfl
  | var y => rfl
  | node o op l r ihl ihr =>
    simp [toTree, Tree.height, Tree.forestHeight, ihl, ihr, depth]

end Expr

/-! ### Pairs of entries -/

namespace Workspace

structure Pair (w : Workspace α) (id id' : Nat) (e e' : Expr α) : Prop where
  own : w.graph.OwnTokens
  apart : id ≠ id'
  first : w.Holds id e
  second : w.Holds id' e'

theorem Pair.symm {w : Workspace α} {id id' : Nat} {e e' : Expr α} (pair : w.Pair id id' e e') :
    w.Pair id' id e' e :=
  ⟨pair.own, pair.apart.symm, pair.second, pair.first⟩

end Workspace

namespace Work

variable {w : Workspace α} {id id' : Nat} {e e' : Expr α}

theorem effect_hang {entry : Entry α} (found : w.entries[id]? = some entry) {token operand : Nat}
    {slot : Slot} (fits : Links.Fits w.graph.tokens.size w.graph.nodes.size
      ⟨token, some (slot.pick entry.root operand, slot.pick operand entry.root)⟩) :
    effect (hang id token slot operand) w = (.ok (), ⟨w.graph.place _ fits,
      w.entries.modify id fun old => { old with root := w.graph.nodes.size }⟩) := by
  rw [hang, effect_bind (effect_root found)]
  cases slot <;> exact effect_bind (effect_place fits)

/-- Moving an operand over adds an operation to an entry. -/
theorem addOperation_tree [OfInteger α] (id : Nat) (op : Op) (slot : Slot) (operand : Nat) :
    addOperation id (.operator op) slot.index [.tree operand] =
      (introduce id op slot operand : Work α Unit) := by
  cases slot <;> rfl

/-- An operation on an entry takes effect there and nowhere else. -/
theorem introduce_pair (pair : w.Pair id id' e e') {levels operand : Nat} {f : Expr α}
    (reads : w.graph.Reads levels operand f) (op : Op) (slot : Slot) :
    ∃ w', effect (introduce id' op slot operand) w = (.ok (), w') ∧
      w'.Pair id id' e (Solving.wrap op slot e' f) ∧ w'.graph.Extends w.graph := by
  obtain ⟨own, apart, ⟨entry, found, read⟩, ⟨entry', found', read'⟩⟩ := pair
  have older : ∀ pair ∈ some (slot.pick entry'.root operand, slot.pick operand entry'.root),
      pair.1 < w.graph.nodes.size ∧ pair.2 < w.graph.nodes.size := by
    have inside := And.intro (Graph.Reads.lt_size read') reads.lt_size
    rintro pair ⟨⟩
    cases slot
    · exact inside
    · exact inside.symm
  have extended := w.graph.extends_add (.operator .introduced op) _ older
  have root := w.graph.node?_add_self (.operator .introduced op) _ older
  have whole : (w.graph.add (.operator .introduced op) _ older).tree? w.graph.nodes.size =
      some (Solving.wrap op slot e' f).toTree := by
    have first := (Graph.Reads.extended read' extended).mono (Nat.le_max_left _ levels)
    have second := (reads.extended extended).mono (Nat.le_max_right (entry'.root + 1) _)
    cases slot with
    | left => exact (Graph.reads_inner root first second).tree?
    | right => exact (Graph.reads_inner root second first).tree?
  refine ⟨_, effect_hang (w := { w with graph := w.graph.newToken (.operator .introduced op) })
    found' ⟨?_, older⟩, ⟨own.add _ _ older, apart, ⟨entry, ?_, extended.treeWithin read ?_⟩,
    ⟨{ entry' with root := w.graph.nodes.size }, ?_, whole⟩⟩, extended⟩
  · simp [Graph.newToken]
  · simp [Array.getElem?_modify, apart.symm, found]
  · exact Nat.le_refl _
  · simp [Array.getElem?_modify, found', Graph.newToken]

theorem effect_here (holds : w.Holds id e) (x : String) : ∃ here n,
    w.graph.Reads (here + 1) here e ∧ w.graph.node? here = some n ∧ n.isName x = e.isVar x ∧
    ∀ {β : Type} (next : Node α → Work α β),
      effect (do next (← found ((← get).graph.node? (← root id)))) w = effect (next n) w := by
  obtain ⟨entry, found, read⟩ := holds
  have reads : w.graph.Reads (entry.root + 1) entry.root e := read
  have start {n : Node α} (node : w.graph.node? entry.root = some n) {β : Type}
      (next : Node α → Work α β) :
      effect (do next (← Work.found ((← get).graph.node? (← root id)))) w = effect (next n) w := by
    rw [effect_bind (effect_get w), effect_bind (effect_root found), node]
    rfl
  rcases reads.cases with ⟨t, node, leaf, rfl⟩ | ⟨o, op, l, r, left, right, rfl, node, -⟩
  · refine ⟨_, _, reads, node, ?_, start node⟩
    cases e with
    | node => cases leaf
    | _ => rfl
  · exact ⟨_, _, reads, node, rfl, start node⟩

variable [Arithmetic α] {env : Env α}

/-- Moving an operand over leaves the one entry with the other operand. That is left as it is, as
there is nothing in it to fold. -/
theorem moveOver_pair (pair : w.Pair id id' e e') {levels next operand : Nat} {kept moving : Expr α}
    (readNext : w.graph.Reads levels next kept) (stuck : kept.simplify env = kept)
    (readOperand : w.graph.Reads levels operand moving) (applied : Op) (place : Slot) :
    ∃ w', effect (moveOver env id id' applied place next operand) w = (.ok (), w') ∧
      w'.Pair id id' kept (Solving.moved env applied place e' moving) := by
  obtain ⟨w₁, added, ⟨own, apart, ⟨entry, found, -⟩, ⟨entry', found', read'⟩⟩, extended⟩ :=
    introduce_pair pair readOperand applied place
  obtain ⟨b, g, folds, reads', folded⟩ := Edit.foldNode_reads own env read'
  obtain ⟨kept', readNext', partly⟩ := folded.exprs _ _ _ (readNext.extended extended)
  rw [← stuck] at partly
  obtain rfl : kept' = kept := partly.eq_of_simplify.trans stuck
  let entries := w₁.entries.modify id fun old => { old with root := next }
  refine ⟨⟨g, entries⟩, ?_, own.folded folded, apart, ⟨{ entry with root := next }, ?_, ?_⟩,
    ⟨entry', ?_, reads'⟩⟩
  · rw [moveOver, effect_bind added, effect_bind (effect_root found'),
      effect_bind (effect_edit folds)]
    rfl
  · simp [entries, Array.getElem?_modify, found]
  · exact readNext'.tree?
  · simp [entries, Array.getElem?_modify, apart, found']

/-- Folding one entry of a pair folds the other one at most in part. -/
theorem simplify_pair (pair : w.Pair id id' e e') (env : Env α) :
    ∃ w' partly, effect (simplify env id) w = (.ok (), w') ∧ e'.Folded env partly ∧
      w'.Pair id id' (e.simplify env) partly := by
  obtain ⟨own, apart, ⟨entry, found, read⟩, ⟨entry', found', read'⟩⟩ := pair
  obtain ⟨g, done, reads, folded⟩ := Edit.simplify_reads own env read
  obtain ⟨partly, reads', step⟩ := folded.exprs _ _ _ read'
  refine ⟨{ w with graph := g }, partly, ?_, step, own.folded folded, apart,
    ⟨entry, found, reads⟩, ⟨entry', found', reads'⟩⟩
  rw [simplify, effect_bind (effect_root found)]
  exact effect_edit done

/-- Folding both entries of a pair folds each as it would be folded alone. -/
theorem simplify_both (pair : w.Pair id id' e e') (env : Env α) :
    ∃ w' w'', effect (simplify env id) w = (.ok (), w') ∧
      effect (simplify env id') w' = (.ok (), w'') ∧
      w''.Pair id id' (e.simplify env) (e'.simplify env) := by
  obtain ⟨w', partly, first, folded, pair'⟩ := simplify_pair pair env
  obtain ⟨w'', again, second, folded', pair''⟩ := simplify_pair pair'.symm env
  rw [folded.simplify, folded'.eq_of_simplify] at pair''
  exact ⟨w', w'', first, second, pair''.symm⟩

end Work

end Equate
