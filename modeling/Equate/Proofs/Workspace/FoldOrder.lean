import Equate.Proofs.Workspace.Simplify

/-!
# The order of folds

Nodes of a tree may be folded one by one in any order, with some of the values first and with more
of them later. `simplify_after_foldings`: the tree that folding all nodes leaves in the end is the
same as if nothing had been folded before, and folds that go on until none is left lead to it too.
They do not go on for ever, since each of them makes the tree smaller.
-/

namespace Equate

variable {α : Type}

theorem effect_bind_error {σ β γ : Type} {change : ExceptT Failure (StateM σ) β}
    {next : β → ExceptT Failure (StateM σ) γ} {s s' : σ} {f : Failure}
    (failed : effect change s = (.error f, s')) : effect (change >>= next) s = (.error f, s') := by
  unfold effect at failed ⊢
  rw [ExceptT.run_bind, StateT.run_bind, failed]
  rfl

/-- Folding a node tells whether there was something to fold. -/
theorem Edit.foldNode_answer [Arithmetic α] {g : Graph α} {levels id : Nat} {e : Expr α}
    (reads : g.Reads levels id e) (env : Env α) :
    (effect (foldNode env id) g).1 = .ok (e.foldRoot? env).isSome := by
  cases levels with
  | zero => cases reads
  | succ levels =>
    rcases reads.cases with ⟨t, found, leaf, rfl⟩ |
      ⟨o, op, l, r, left, right, rfl, found, readLeft, readRight⟩
    · have other : e.token.isOperator = false ∧ e.foldRoot? env = none := by
        cases e with
        | node => cases leaf
        | _ => exact ⟨rfl, rfl⟩
      rw [foldNode_other found other.1, other.2]
      rfl
    · by_cases leaves : l.isLeaf = true ∧ r.isLeaf = true
      · obtain ⟨isLeft, isRight⟩ := leaves
        have leafLeft := Graph.leafToken?_of_isLeaf readLeft isLeft
        have leafRight := Graph.leafToken?_of_isLeaf readRight isRight
        have tokens : Rpn.eval env [l.token, r.token, .operator o op] =
            (Expr.node o op l r).eval env := Expr.eval_tokens isLeft isRight
        have outcome := (Expr.node o op l r).eval_of_unbound? env
        cases unbound : (Expr.node o op l r).unbound? env with
        | none =>
          rw [unbound] at outcome
          obtain ⟨v, value⟩ := outcome
          rw [foldNode_value found leafLeft leafRight (tokens.trans value)]
          simp [Expr.foldRoot?, isLeft, isRight, value]
        | some x =>
          rw [unbound] at outcome
          rw [foldNode_unresolved found leafLeft leafRight (tokens.trans outcome)]
          simp [Expr.foldRoot?, outcome]
      · have inner : g.leafToken? left = none ∨ g.leafToken? right = none := by
          rcases Classical.not_and_iff_not_or_not.mp leaves with inner | inner
          · exact Or.inl (Graph.leafToken?_of_inner readLeft inner)
          · exact Or.inr (Graph.leafToken?_of_inner readRight inner)
        rw [foldNode_inner found inner, Expr.foldRoot?, if_neg (by simpa using leaves)]
        rfl

namespace Work

variable {w : Workspace α} {id : Nat} {e : Expr α}

/-! ### Following a path -/

theorem effect_descend_leaf {node : Nat} {t : Token α} (found : w.graph.node? node = some (.leaf t))
    (i : Int) (path : List Int) :
    effect (descend node (i :: path)) w = (.error (.misuse .noChildren), w) := by
  rw [descend, effect_bind (effect_get w), found]
  rfl

theorem effect_descend_inner {node left right : Nat} {o : Origin} {op : Op}
    (found : w.graph.node? node = some (.inner o op left right)) (i : Int) (path : List Int) :
    effect (descend node (i :: path)) w = match Slot.ofPathIndex? i with
      | some .left => effect (descend left path) w
      | some .right => effect (descend right path) w
      | none => (.error (.misuse .noChildAt), w) := by
  rw [descend, effect_bind (effect_get w), found]
  rcases Slot.ofPathIndex? i with _ | _ | _ <;> rfl

section Descend

variable {levels node : Nat} (reads : w.graph.Reads levels node e)
include reads

/-- A path that stays in the tree leads to a node of it; any other is refused. -/
theorem effect_descend [Arithmetic α] (path : List Int) :
    (∃ f, effect (descend node path) w = (.error f, w)) ∨
    ∃ target levels sub slots, effect (descend node path) w = (.ok target, w) ∧
      w.graph.Reads levels target sub ∧
      ∀ env, (e.foldAt? env slots).isSome = (sub.foldRoot? env).isSome := by
  induction path generalizing node levels e with
  | nil => exact Or.inr ⟨node, levels, e, [], rfl, reads, fun _ => rfl⟩
  | cons i path ih =>
    cases levels with
    | zero => cases reads
    | succ levels =>
      rcases reads.cases with ⟨t, found, -, -⟩ |
        ⟨o, op, l, r, left, right, rfl, found, readLeft, readRight⟩
      · exact Or.inl ⟨_, effect_descend_leaf found i path⟩
      · rw [effect_descend_inner found]
        rcases Slot.ofPathIndex? i with _ | _ | _
        · exact Or.inl ⟨_, rfl⟩
        · refine (ih readLeft).imp_right ?_
          rintro ⟨target, levels, sub, slots, leads, reads, same⟩
          refine ⟨target, levels, sub, .left :: slots, leads, reads, fun env => ?_⟩
          rw [← same env, Expr.foldAt?, Option.isSome_map]
        · refine (ih readRight).imp_right ?_
          rintro ⟨target, levels, sub, slots, leads, reads, same⟩
          refine ⟨target, levels, sub, .right :: slots, leads, reads, fun env => ?_⟩
          rw [← same env, Expr.foldAt?, Option.isSome_map]

/-- A tree gets smaller if what a path leads to gets smaller, while the rest is folded in part. -/
theorem smaller_of_descend [Arithmetic α] {env : Env α} {g : Graph α} {path : List Int}
    {target : Nat} (folded : w.graph.Folded env g)
    (smaller : ∀ levels sub, w.graph.Reads levels target sub →
      ∃ sub', g.Reads levels target sub' ∧ sub'.size < sub.size)
    (leads : effect (descend node path) w = (.ok target, w)) :
    ∃ e', g.Reads levels node e' ∧ e'.size < e.size := by
  induction path generalizing node levels e with
  | nil =>
    cases leads
    exact smaller levels e reads
  | cons i path ih =>
    cases levels with
    | zero => cases reads
    | succ levels =>
      rcases reads.cases with ⟨t, found, -, -⟩ |
        ⟨o, op, l, r, left, right, rfl, found, readLeft, readRight⟩
      · rw [effect_descend_leaf found] at leads
        cases leads
      · rw [effect_descend_inner found] at leads
        have sizes := And.intro l.size_pos r.size_pos
        rcases folded.nodes node with same | ⟨v, literal⟩
        · rw [found] at same
          obtain ⟨l', readLeft', partly⟩ := folded.exprs _ _ _ readLeft
          obtain ⟨r', readRight', partly'⟩ := folded.exprs _ _ _ readRight
          have left_le := partly.size_le
          have right_le := partly'.size_le
          revert leads
          rcases Slot.ofPathIndex? i with _ | _ | _ <;> intro leads
          · cases leads
          · obtain ⟨l'', readLeft'', less⟩ := ih readLeft leads
            refine ⟨_, Graph.reads_inner same readLeft'' readRight', ?_⟩
            simp only [Expr.size]
            omega
          · obtain ⟨r'', readRight'', less⟩ := ih readRight leads
            refine ⟨_, Graph.reads_inner same readLeft' readRight'', ?_⟩
            simp only [Expr.size]
            omega
        · refine ⟨.lit v, Graph.reads_leaf literal rfl rfl, ?_⟩
          simp only [Expr.size]
          omega

theorem effect_descend_of_foldAt? [Arithmetic α] {env : Env α} {path : List Slot} {e' : Expr α}
    (folded : e.foldAt? env path = some e') :
    ∃ target levels sub sub', effect (descend node (path.map fun s => (s.index : Int))) w =
      (.ok target, w) ∧ w.graph.Reads levels target sub ∧ sub.foldRoot? env = some sub' := by
  induction path generalizing node levels e e' with
  | nil => exact ⟨node, levels, e, e', rfl, reads, folded⟩
  | cons slot path ih =>
    cases levels with
    | zero => cases reads
    | succ levels =>
      rcases reads.cases with ⟨t, -, leaf, -⟩ |
        ⟨o, op, l, r, left, right, rfl, found, readLeft, readRight⟩
      · cases e with
        | node => cases leaf
        | _ => cases slot <;> cases folded
      · rw [List.map_cons, effect_descend_inner found]
        cases slot with
        | left =>
          obtain ⟨l', inner, -⟩ := Option.map_eq_some_iff.mp folded
          exact ih readLeft inner
        | right =>
          obtain ⟨r', inner, -⟩ := Option.map_eq_some_iff.mp folded
          exact ih readRight inner

end Descend

/-! ### One fold -/

variable [Arithmetic α] {env : Env α}

theorem effect_foldAt_error {entry : Entry α} {path : List Int} {f : Failure}
    (found : w.entries[id]? = some entry)
    (refused : effect (descend entry.root path) w = (.error f, w)) :
    effect (foldAt env id path) w = (.error f, w) := by
  rw [foldAt, effect_bind (effect_root found)]
  exact effect_bind_error refused

theorem effect_foldAt_ok {entry : Entry α} {path : List Int} {target : Nat} {b : Bool} {g : Graph α}
    (found : w.entries[id]? = some entry)
    (leads : effect (descend entry.root path) w = (.ok target, w))
    (folds : effect (Edit.foldNode env target) w.graph = (.ok b, g)) :
    effect (foldAt env id path) w = (.ok b, { w with graph := g }) := by
  rw [foldAt, effect_bind (effect_root found), effect_bind leads]
  exact effect_edit folds

/-- A fold at a path that answers true makes the tree smaller, also where nodes are shared. -/
theorem foldAt_smaller (own : w.graph.OwnTokens) (holds : w.Holds id e) {path : List Int}
    (done : (effect (foldAt env id path) w).1 = .ok true) :
    ∃ e', (effect (foldAt env id path) w).2.Holds id e' ∧ e'.size < e.size := by
  obtain ⟨entry, found, read⟩ := holds
  rcases effect_descend read path with ⟨f, refused⟩ | ⟨target, levels, sub, -, leads, reads, -⟩
  · rw [effect_foldAt_error found refused] at done
    cases done
  · obtain ⟨b, g, folds, -, folded⟩ := Edit.foldNode_reads own env reads
    rw [effect_foldAt_ok found leads folds] at done ⊢
    cases done
    obtain ⟨e', read', less⟩ := smaller_of_descend read folded (fun levels sub reads => by
      obtain ⟨b, g', folds', reads', -⟩ := Edit.foldNode_reads own env reads
      have answer := Edit.foldNode_answer reads env
      rw [folds] at answer folds'
      cases folds'
      obtain ⟨sub', root⟩ := Option.isSome_iff_exists.mp (Except.ok.inj answer).symm
      have here : sub.foldAt? env [] = some sub' := root
      rw [Expr.foldRoot, root] at reads'
      exact ⟨sub', reads', Expr.size_foldAt? here⟩) leads
    exact ⟨e', ⟨entry, found, read'⟩, less⟩

/-- Some path leads to a node that is folded exactly if some node of the tree can be folded. -/
theorem foldAt_iff_foldAt? (own : w.graph.OwnTokens) (holds : w.Holds id e) (env : Env α) :
    (∃ path, (effect (foldAt env id path) w).1 = .ok true) ↔
      ∃ path, (e.foldAt? env path).isSome = true := by
  obtain ⟨entry, found, read⟩ := holds
  have answer {path : List Int} {target levels : Nat} {sub : Expr α}
      (leads : effect (descend entry.root path) w = (.ok target, w))
      (reads : w.graph.Reads levels target sub) :
      (effect (foldAt env id path) w).1 = .ok (sub.foldRoot? env).isSome := by
    obtain ⟨b, g, folds, -⟩ := Edit.foldNode_reads own env reads
    have told := Edit.foldNode_answer reads env
    rw [folds] at told
    rw [effect_foldAt_ok found leads folds, told]
  constructor
  · rintro ⟨path, done⟩
    rcases effect_descend read path with ⟨f, refused⟩ | ⟨_, _, sub, slots, leads, reads, same⟩
    · rw [effect_foldAt_error found refused] at done
      cases done
    · rw [answer leads reads, ← same env] at done
      exact ⟨slots, Except.ok.inj done⟩
  · rintro ⟨slots, folded⟩
    obtain ⟨e', folded⟩ := Option.isSome_iff_exists.mp folded
    obtain ⟨target, levels, sub, sub', leads, reads, root⟩ := effect_descend_of_foldAt? read folded
    exact ⟨_, (answer leads reads).trans (by rw [root]; rfl)⟩

/-- No path leads to a node that can be folded exactly if folding all nodes changes nothing. -/
theorem stuck_iff (own : w.graph.OwnTokens) (holds : w.Holds id e) (env : Env α) :
    (∀ path, (effect (foldAt env id path) w).1 ≠ .ok true) ↔ e.simplify env = e := by
  have none_left := not_congr (foldAt_iff_foldAt? own holds env)
  rw [not_exists, not_exists] at none_left
  rw [none_left, ← Expr.stuck_iff]
  simp only [Bool.not_eq_true, Option.isSome_eq_false_iff, Option.isNone_iff_eq_none]

theorem effect_simplify (own : w.graph.OwnTokens) (holds : w.Holds id e) (env : Env α) :
    ∃ w', effect (simplify env id) w = (.ok (), w') ∧ w'.Holds id (e.simplify env) := by
  obtain ⟨entry, found, read⟩ := holds
  obtain ⟨g, done, reads, -⟩ := Edit.simplify_reads own env read
  refine ⟨{ w with graph := g }, ?_, entry, found, reads⟩
  rw [simplify, effect_bind (effect_root found)]
  exact effect_edit done

/-! ### Folds in any order -/

/-- What may be done to an entry: the node at the end of a path is folded, or all nodes are. -/
structure Folding (α : Type) where
  env : Env α
  path : Option (List Int)

def Folding.perform (id : Nat) (w : Workspace α) (f : Folding α) : Workspace α :=
  match f.path with
  | some path => (effect (foldAt f.env id path) w).2
  | none => (effect (simplify f.env id) w).2

/-- A fold of an entry is a fold of the whole graph, also where nodes are shared. -/
theorem perform_graph (own : w.graph.OwnTokens) (holds : w.Holds id e) (f : Folding α) :
    ∃ g, f.perform id w = { w with graph := g } ∧ w.graph.Folded f.env g := by
  obtain ⟨entry, found, read⟩ := holds
  obtain ⟨env, path⟩ := f
  cases path with
  | none =>
    obtain ⟨g, done, -, folded⟩ := Edit.simplify_reads own env read
    refine ⟨g, ?_, folded⟩
    have simplified : effect (simplify env id) w = (.ok (), { w with graph := g }) := by
      rw [simplify, effect_bind (effect_root found)]
      exact effect_edit done
    rw [Folding.perform, simplified]
  | some path =>
    rcases effect_descend read path with ⟨f, refused⟩ | ⟨target, levels, sub, -, leads, reads, -⟩
    · refine ⟨w.graph, ?_, .refl _⟩
      change (effect (foldAt env id path) w).2 = w
      rw [effect_foldAt_error found refused]
    · obtain ⟨b, g, folds, -, folded⟩ := Edit.foldNode_reads own env reads
      refine ⟨g, ?_, folded⟩
      change (effect (foldAt env id path) w).2 = { w with graph := g }
      rw [effect_foldAt_ok found leads folds]

/-- What an entry holds is folded in part by any fold, be it of this entry or of another. -/
theorem perform_holds (own : w.graph.OwnTokens) (holds : w.Holds id e) (f : Folding α)
    {other : Nat} {e' : Expr α} (holds' : w.Holds other e') :
    (f.perform id w).graph.OwnTokens ∧
      ∃ e'', (f.perform id w).Holds other e'' ∧ e'.Folded f.env e'' := by
  obtain ⟨g, performed, folded⟩ := perform_graph own holds f
  obtain ⟨entry, found, read⟩ := holds'
  obtain ⟨e'', read', partly⟩ := folded.exprs _ _ _ read
  rw [performed]
  exact ⟨own.folded folded, e'', ⟨entry, found, read'⟩, partly⟩

theorem foldings_folded (own : w.graph.OwnTokens) (holds : w.Holds id e)
    {foldings : List (Folding α)} (contained : ∀ f ∈ foldings, env.Extends f.env) :
    (foldings.foldl (Folding.perform id) w).graph.OwnTokens ∧
      ∃ e', (foldings.foldl (Folding.perform id) w).Holds id e' ∧ e.Folded env e' := by
  induction foldings generalizing w e with
  | nil => exact ⟨own, e, holds, .same e⟩
  | cons f rest ih =>
    obtain ⟨own₁, e₁, holds₁, first⟩ := perform_holds own holds f holds
    obtain ⟨own₂, e₂, holds₂, later⟩ :=
      ih own₁ holds₁ fun next member => contained next (List.mem_cons_of_mem f member)
    exact ⟨own₂, e₂, holds₂, (first.mono (contained f List.mem_cons_self)).trans later⟩

/-- Whatever was folded before with some of the values, folding all nodes with all the values leaves
the tree that it leaves at once. This tree has been reached as soon as no path leads to a node that
can be folded with all the values. As long as one does, folding the node makes the tree smaller. -/
theorem simplify_after_foldings (own : w.graph.OwnTokens) (holds : w.Holds id e)
    (foldings : List (Folding α)) (contained : ∀ f ∈ foldings, env.Extends f.env) :
    let w' := foldings.foldl (Folding.perform id) w
    (∃ direct, effect (simplify env id) w = (.ok (), direct) ∧
      direct.Holds id (e.simplify env)) ∧
    (∃ last, effect (simplify env id) w' = (.ok (), last) ∧ last.Holds id (e.simplify env)) ∧
    ((∀ path, (effect (foldAt env id path) w').1 ≠ .ok true) ↔
      w'.Holds id (e.simplify env)) ∧
    ∃ e', w'.Holds id e' ∧ ∀ path, (effect (foldAt env id path) w').1 = .ok true →
      ∃ e'', (effect (foldAt env id path) w').2.Holds id e'' ∧ e''.size < e'.size := by
  intro w'
  obtain ⟨own', e', holds', folded⟩ := foldings_folded own holds contained
  have same : e'.simplify env = e.simplify env := folded.simplify
  refine ⟨effect_simplify own holds env, ?_, ⟨?_, ?_⟩, e', holds', ?_⟩
  · rw [← same]
    exact effect_simplify own' holds' env
  · intro stuck
    rw [← same, (stuck_iff own' holds' env).mp stuck]
    exact holds'
  · intro reached
    exact (stuck_iff own' reached env).mpr (e.simplify_folded env).simplify
  · exact fun path done => foldAt_smaller own' holds' done

/-- `y * ((x + 2) - (x + 2))`, where the two operands of the difference are one node: it is folded
on the way to the right operand, then as the left one, then by way of a path that leaves the tree,
and then all nodes are, each time with a value for `x` alone. -/
theorem simplify_after_foldings_of_product :
    let tokens : Array (Token Float) := #[.name "x", .literal 2, .operator .parsed .add,
      .operator .parsed .sub, .name "y", .operator .parsed .mul]
    let nodes : Array Links := #[⟨0, none⟩, ⟨1, none⟩, ⟨2, some (0, 1)⟩, ⟨3, some (2, 2)⟩,
      ⟨4, none⟩, ⟨5, some (4, 3)⟩]
    let w : Workspace Float := ⟨⟨tokens, nodes, by decide⟩, #[⟨5, []⟩]⟩
    let sum : Expr Float := .node .parsed .add (.var "x") (.lit 2)
    let e : Expr Float := .node .parsed .mul (.var "y") (.node .parsed .sub sum sum)
    let few : Env Float := fun x => if x = "x" then some 3 else none
    let env : Env Float := fun x => if x = "y" then some 7 else few x
    let foldings : List (Folding Float) :=
      [⟨few, some [1, 1]⟩, ⟨few, some [1, 0]⟩, ⟨few, some [0, 1]⟩, ⟨few, none⟩]
    w.graph.OwnTokens ∧ w.Holds 0 e ∧ (∀ f ∈ foldings, env.Extends f.env) ∧
      ∃ last, effect (simplify env 0) (foldings.foldl (Folding.perform 0) w) = (.ok (), last) ∧
        last.Holds 0 (e.simplify env) := by
  intro tokens nodes w sum e few env foldings
  have own : w.graph.OwnTokens := Graph.ownTokens_of_nodup (by decide)
  have holds : w.Holds 0 e := ⟨⟨5, []⟩, rfl, rfl⟩
  have contained : ∀ f ∈ foldings, env.Extends f.env := by
    have wider : env.Extends few := by
      intro x v bound
      by_cases other : x = "y"
      · subst other
        cases bound
      · simp only [env, if_neg other]
        exact bound
    intro f member
    simp only [foldings, List.mem_cons, List.not_mem_nil, or_false] at member
    rcases member with rfl | rfl | rfl | rfl <;> exact wider
  have folded := simplify_after_foldings own holds foldings contained
  exact ⟨own, holds, contained, folded.2.1⟩

end Work

end Equate
