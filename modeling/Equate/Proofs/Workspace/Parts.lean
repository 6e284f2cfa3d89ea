import Equate.Proofs.Workspace.FoldOrder

/-!
# Parts of a graph

A graph falls into two parts if no operation has its operands in the other one, and no token is held
in both. `Graph.Parted` says so of the nodes of one part, together with what makes every node stand
for an expression, if it is the rule that no token is held twice. `Graph.Keeps` tells that a change
left the nodes outside the part alone, and with them the trees there (`Keeps.treeWithin`). Folds
keep to the part where they begin, and copies to the part that new nodes belong to. A new node with
a token that was given does so if no node outside the part has the token (`Graph.Lent`).
-/

namespace Equate

variable {α : Type}

/-- Whether a token can stand alone: a value or a variable. -/
def Token.IsOperand (t : Token α) : Prop := ∃ e : Expr α, e.isLeaf = true ∧ t = e.token

theorem Token.isOperand_literal (v : α) : (Token.literal v).IsOperand := ⟨.lit v, rfl, rfl⟩

theorem Token.isOperand_name (x : String) : (Token.name x : Token α).IsOperand := ⟨.var x, rfl, rfl⟩

/-- Some of the nodes and some of the entries of a workspace, and whether it is a rule that no token
is held by two nodes. -/
structure Part where
  nodes : Nat → Prop
  entries : Nat → Prop
  once : Prop

namespace Graph

/-- Whether the nodes of a part, to which all new ones will belong, are apart from the others: they
have no operands there, and no tokens in common with them. -/
structure Parted (p : Part) (g : Graph α) : Prop where
  leaves : ∀ id t, g.node? id = some (.leaf t) → t.IsOperand
  apart : ∀ id l r, g.operands? id = some (l, r) →
    (p.nodes l ↔ p.nodes id) ∧ (p.nodes r ↔ p.nodes id)
  tokens : ∀ id id' t, g.token? id = some t → g.token? id' = some t → (p.nodes id ↔ p.nodes id')
  new : ∀ id, g.nodes.size ≤ id → p.nodes id
  own : p.once → g.OwnTokens
  whole : p.once → ∀ id n, g.node? id = some n → n.operands ≠ none → n.token.isOperator = true

/-- Whether the nodes outside a part are as they were. -/
structure Keeps (p : Part) (g g' : Graph α) : Prop where
  node? : ∀ id, ¬ p.nodes id → g'.node? id = g.node? id
  token? : ∀ id, ¬ p.nodes id → g'.token? id = g.token? id
  size : g.nodes.size ≤ g'.nodes.size
  tokens : g.tokens.size ≤ g'.tokens.size

structure Confined (p : Part) (g g' : Graph α) : Prop where
  parted : g'.Parted p
  kept : g.Keeps p g'

variable {p : Part} {g g' g'' : Graph α} {id : Nat}

theorem Keeps.refl (g : Graph α) : g.Keeps p g :=
  ⟨fun _ _ => rfl, fun _ _ => rfl, Nat.le_refl _, Nat.le_refl _⟩

theorem Keeps.trans (first : g.Keeps p g') (second : g'.Keeps p g'') : g.Keeps p g'' where
  node? id other := (second.node? id other).trans (first.node? id other)
  token? id other := (second.token? id other).trans (first.token? id other)
  size := Nat.le_trans first.size second.size
  tokens := Nat.le_trans first.tokens second.tokens

theorem Parted.unchanged (parted : g.Parted p) : g.Confined p g := ⟨parted, .refl g⟩

theorem Confined.trans (first : g.Confined p g') (second : g'.Confined p g'') :
    g.Confined p g'' := ⟨second.parted, first.kept.trans second.kept⟩

/-- The trees of the other nodes are as they were, too. -/
theorem Keeps.treeWithin (kept : g.Keeps p g') (parted : g.Parted p) (levels : Nat)
    (other : ¬ p.nodes id) : g'.treeWithin levels id = g.treeWithin levels id := by
  induction levels generalizing id with
  | zero => rfl
  | succ levels ih =>
    rw [Graph.treeWithin, Graph.treeWithin, kept.node? id other]
    cases found : g.node? id with
    | none => rfl
    | some n =>
      cases below : n.operands with
      | none => simp [below]
      | some pair =>
        obtain ⟨l, r⟩ := pair
        obtain ⟨left, right⟩ := parted.apart id l r ((operands?_of_node? found).trans below)
        simp [below, ih (mt left.mp other), ih (mt right.mp other)]

/-- If no token is held by two nodes, every node stands for an expression. -/
theorem Parted.reads (parted : g.Parted p) (once : p.once) (inside : id < g.nodes.size) :
    ∃ e, g.Reads (id + 1) id e := by
  induction id using Nat.strongRecOn with
  | ind id ih =>
    obtain ⟨⟨t, operands⟩, found⟩ := exists_node inside
    cases operands with
    | none =>
      obtain ⟨e, leaf, token⟩ := parted.leaves id t found
      exact ⟨e, reads_leaf found leaf token⟩
    | some pair =>
      obtain ⟨l, r⟩ := pair
      have operator := parted.whole once id _ found (Option.some_ne_none _)
      obtain ⟨olderLeft, olderRight⟩ := older_of_node? found rfl
      obtain ⟨l', readLeft⟩ := ih l olderLeft (Nat.lt_trans olderLeft inside)
      obtain ⟨r', readRight⟩ := ih r olderRight (Nat.lt_trans olderRight inside)
      cases t with
      | operator o op =>
        exact ⟨.node o op l' r',
          reads_inner found (readLeft.mono olderLeft) (readRight.mono olderRight)⟩
      | _ => cases operator

/-! ### Tokens that are given -/

/-- Whether there is a token that no node holds. -/
structure Spare (g : Graph α) (t : Nat) : Prop where
  known : t < g.tokens.size
  unused : ∀ id, g.token? id ≠ some t

theorem spare_new (g : Graph α) (t : Token α) : (g.newToken t).Spare g.tokens.size where
  known := by simp [newToken]
  unused _ held := g.token?_ne_new _ held

/-- A token stays spare when other ones are made and put into nodes. -/
theorem Spare.add {t : Nat} (spare : g.Spare t) (t' : Token α) (operands : Option (Nat × Nat))
    (older : ∀ pair ∈ operands, pair.1 < g.nodes.size ∧ pair.2 < g.nodes.size) :
    (g.add t' operands older).Spare t where
  known := by simpa [Graph.add, Graph.place, Graph.newToken] using Nat.lt_succ_of_lt spare.known
  unused id held := by
    rw [token?_add] at held
    split at held
    · cases held
      exact absurd spare.known (Nat.lt_irrefl _)
    · exact spare.unused id held

/-- Whether a token may be given to a new node of the part: the nodes that hold it are in the part,
or if that is the rule, it is spare. -/
structure Lent (p : Part) (g : Graph α) (t : Nat) : Prop where
  nodes : ∀ id, g.token? id = some t → p.nodes id
  once : p.once → g.Spare t

theorem Spare.lent {t : Nat} (spare : g.Spare t) (p : Part) : g.Lent p t :=
  ⟨fun id held => absurd held (spare.unused id), fun _ => spare⟩

/-! ### New nodes -/

/-- A node that belongs to the part and can be referred to. -/
def Has (p : Part) (g : Graph α) (id : Nat) : Prop := p.nodes id ∧ id < g.nodes.size

theorem Has.mono (has : g.Has p id) (confined : g.Confined p g') : g'.Has p id :=
  ⟨has.1, Nat.lt_of_lt_of_le has.2 confined.kept.size⟩

theorem Parted.operands (parted : g.Parted p) (has : g.Has p id) {l r : Nat}
    (found : g.operands? id = some (l, r)) : g.Has p l ∧ g.Has p r := by
  obtain ⟨olderLeft, olderRight⟩ := g.older found
  obtain ⟨left, right⟩ := parted.apart id l r found
  exact ⟨⟨left.mpr has.1, Nat.lt_trans olderLeft has.2⟩,
    ⟨right.mpr has.1, Nat.lt_trans olderRight has.2⟩⟩

theorem Parted.newToken (parted : g.Parted p) (t : Token α) : g.Confined p (g.newToken t) where
  parted := {
    leaves := fun id t' found => parted.leaves id t' ((g.node?_newToken t id).symm.trans found)
    apart := parted.apart
    tokens := parted.tokens
    new := parted.new
    own := parted.own
    whole := fun rule id n found =>
      parted.whole rule id n ((g.node?_newToken t id).symm.trans found) }
  kept := ⟨fun id _ => g.node?_newToken t id, fun _ _ => rfl, Nat.le_refl _,
    by simp [Graph.newToken]⟩

/-- Whether a node that is added fits to the part: its operands are there, and its token is one for
a leaf or for an operation. -/
structure Suits (p : Part) (g : Graph α) (n : Links) : Prop where
  operands : ∀ pair ∈ n.operands, p.nodes pair.1 ∧ p.nodes pair.2
  leaf : ∀ t, g.tokens[n.token]? = some t → n.operands = none → t.IsOperand
  inner : p.once → ∀ t, g.tokens[n.token]? = some t → n.operands ≠ none → t.isOperator = true

theorem Parted.keeps_place (parted : g.Parted p) {n : Links}
    (fits : n.Fits g.tokens.size g.nodes.size) : g.Keeps p (g.place n fits) := by
  have outside {id : Nat} (other : ¬ p.nodes id) : id ≠ g.nodes.size := by
    rintro rfl
    exact other (parted.new _ (Nat.le_refl _))
  refine ⟨fun id other => ?_, fun id other => ?_, ?_, Nat.le_refl _⟩
  · rw [node?_place, if_neg (outside other)]
  · rw [token?_place, if_neg (outside other)]
  · simp [Graph.place]

theorem Parted.parted_place (parted : g.Parted p) {n : Links} (lent : g.Lent p n.token)
    (suits : g.Suits p n) (fits : n.Fits g.tokens.size g.nodes.size) :
    (g.place n fits).Parted p where
  leaves id t found := by
    rcases node?_place_cases found with ⟨t', known, made⟩ | found
    · obtain ⟨rfl, below⟩ := Node.mk.inj made
      exact suits.leaf t known below.symm
    · exact parted.leaves id t found
  apart id l r found := by
    rw [operands?_place] at found
    split at found
    · rename_i new
      have mine := parted.new id (Nat.le_of_eq new.symm)
      obtain ⟨left, right⟩ := suits.operands (l, r) found
      exact ⟨iff_of_true left mine, iff_of_true right mine⟩
    · exact parted.apart id l r found
  tokens id id' t held held' := by
    have mine := parted.new g.nodes.size (Nat.le_refl _)
    rw [token?_place] at held held'
    split at held <;> split at held'
    · rename_i here here'
      rw [here, here']
    · rename_i here _
      cases held
      exact iff_of_true (here ▸ mine) (lent.nodes id' held')
    · rename_i _ here'
      cases held'
      exact iff_of_true (lent.nodes id held) (here' ▸ mine)
    · exact parted.tokens id id' t held held'
  new id beyond := parted.new id (Nat.le_trans (parted.keeps_place fits).size beyond)
  own rule := (parted.own rule).place n (lent.once rule).unused fits
  whole rule id m found inner := by
    rcases node?_place_cases found with ⟨t, known, rfl⟩ | found
    · exact suits.inner rule t known inner
    · exact parted.whole rule id m found inner

theorem Parted.place (parted : g.Parted p) {n : Links} (lent : g.Lent p n.token)
    (suits : g.Suits p n) (fits : n.Fits g.tokens.size g.nodes.size) :
    g.Confined p (g.place n fits) ∧ (g.place n fits).Has p g.nodes.size :=
  ⟨⟨parted.parted_place lent suits fits, parted.keeps_place fits⟩,
    parted.new _ (Nat.le_refl _), by simp [Graph.place]⟩

theorem Parted.add (parted : g.Parted p) {t : Token α} {operands : Option (Nat × Nat)}
    (older : ∀ pair ∈ operands, pair.1 < g.nodes.size ∧ pair.2 < g.nodes.size)
    (mine : ∀ pair ∈ operands, p.nodes pair.1 ∧ p.nodes pair.2)
    (leaf : operands = none → t.IsOperand)
    (inner : p.once → operands ≠ none → t.isOperator = true) :
    g.Confined p (g.add t operands older) ∧ (g.add t operands older).Has p g.nodes.size ∧
      ∀ t', g.Lent p t' → (g.add t operands older).Lent p t' := by
  have known : (g.newToken t).tokens[g.tokens.size]? = some t := Array.getElem?_push_size
  have first := parted.newToken t
  obtain ⟨second, has⟩ := first.parted.place (n := ⟨g.tokens.size, operands⟩)
    ((g.spare_new t).lent p)
    ⟨mine, fun t' found => Option.some.inj (known.symm.trans found) ▸ leaf,
      fun rule t' found => Option.some.inj (known.symm.trans found) ▸ inner rule⟩
    ⟨by simp [Graph.newToken], older⟩
  refine ⟨first.trans second, has, fun t' lent => ⟨fun id held => ?_, fun rule => ?_⟩⟩
  · rw [token?_add] at held
    split at held
    · rename_i here
      exact here ▸ has.1
    · exact lent.nodes id held
  · exact (lent.once rule).add t operands older

theorem Parted.leaf (parted : g.Parted p) {t : Token α} (fit : t.IsOperand) :
    g.Confined p (Grown.leaf g t).graph ∧ (Grown.leaf g t).graph.Has p (Grown.leaf g t).root ∧
      ∀ t', g.Lent p t' → (Grown.leaf g t).graph.Lent p t' :=
  parted.add older_none (by rintro _ ⟨⟩) (fun _ => fit) fun _ other => absurd rfl other

theorem Confined.join {left : g.Grown} {right : left.graph.Grown}
    (first : g.Confined p left.graph) (hasLeft : left.graph.Has p left.root)
    (second : left.graph.Confined p right.graph) (hasRight : right.graph.Has p right.root)
    {t : Token α} (operator : p.once → t.isOperator = true) :
    g.Confined p (left.join right t).graph ∧
      (left.join right t).graph.Has p (left.join right t).root ∧
      ∀ t', right.graph.Lent p t' → (left.join right t).graph.Lent p t' := by
  obtain ⟨third, has, lent⟩ := second.parted.add (left.older right) (by
    rintro pair ⟨⟩
    exact ⟨hasLeft.1, hasRight.1⟩) (by rintro ⟨⟩) fun rule _ => operator rule
  exact ⟨first.trans (second.trans third), has, lent⟩

theorem Parted.addExpr (parted : g.Parted p) (e : Expr α) :
    g.Confined p (g.addExpr e).graph ∧ (g.addExpr e).graph.Has p (g.addExpr e).root ∧
      ∀ t, g.Lent p t → (g.addExpr e).graph.Lent p t := by
  induction e generalizing g with
  | lit v => exact parted.leaf (Token.isOperand_literal v)
  | var x => exact parted.leaf (Token.isOperand_name x)
  | node o op l r ihl ihr =>
    obtain ⟨first, left, lentLeft⟩ := ihl parted
    obtain ⟨second, right, lentRight⟩ := ihr first.parted
    obtain ⟨whole, root, lent⟩ := first.join left second right (t := .operator o op) fun _ => rfl
    exact ⟨whole, root, fun t before => lent t (lentRight t (lentLeft t before))⟩

/-- A copy of any node is made of new nodes only, and their tokens are new. -/
theorem Parted.copyWithin (parted : g.Parted p) {levels : Nat} {new : g.Grown}
    (copied : g.copyWithin levels id = some new) :
    g.Confined p new.graph ∧ new.graph.Has p new.root := by
  induction levels generalizing g id with
  | zero => cases copied
  | succ levels ih =>
    obtain ⟨⟨t, operands⟩, found, copied⟩ := Option.bind_eq_some_iff.mp copied
    split at copied
    · rename_i below
      cases below
      cases copied
      obtain ⟨confined, has, -⟩ := parted.leaf (parted.leaves id t found)
      exact ⟨confined, has⟩
    · rename_i below
      cases below
      obtain ⟨left, copiedLeft, copied⟩ := Option.bind_eq_some_iff.mp copied
      obtain ⟨right, copiedRight, copied⟩ := Option.bind_eq_some_iff.mp copied
      cases copied
      obtain ⟨first, hasLeft⟩ := ih parted copiedLeft
      obtain ⟨second, hasRight⟩ := ih first.parted copiedRight
      obtain ⟨whole, has, -⟩ := first.join hasLeft second hasRight (t := t) fun rule =>
        parted.whole rule id _ found (Option.some_ne_none _)
      exact ⟨whole, has⟩

/-! ### Folds -/

theorem node?_fold_cases {other : Nat} {n : Node α} {v : α}
    (found : (g.fold id v).node? other = some n) :
    ∃ m, g.node? other = some m ∧
      n = ⟨if g.token? other = g.token? id then .literal v else m.token,
        if other = id then none else m.operands⟩ := by
  rw [node?_fold] at found
  obtain ⟨m, before, rfl⟩ := Option.map_eq_some_iff.mp found
  exact ⟨m, before, rfl⟩

theorem Parted.parted_fold (parted : g.Parted p) (id : Nat) (v : α) : (g.fold id v).Parted p where
  leaves other t found := by
    obtain ⟨⟨t', operands⟩, before, made⟩ := node?_fold_cases found
    obtain ⟨rfl, below⟩ := Node.mk.inj made
    split
    · exact Token.isOperand_literal v
    · rename_i apart
      rw [if_neg fun same => apart (congrArg g.token? same)] at below
      cases below
      exact parted.leaves other t' before
  apart other l r found := by
    rw [operands?_fold] at found
    split at found
    · cases found
    · exact parted.apart other l r found
  tokens other other' t held held' := by
    rw [token?_fold] at held held'
    exact parted.tokens other other' t held held'
  new other beyond := parted.new other (by simpa [Graph.fold] using beyond)
  own rule := (parted.own rule).of_tokens (g.token?_fold id v)
  whole rule other n found inner := by
    obtain ⟨m, before, rfl⟩ := node?_fold_cases found
    have apart : other ≠ id := fun same => inner (if_pos same)
    rw [if_neg apart] at inner
    dsimp only
    rw [if_neg ((parted.own rule).token?_ne (lt_size_of_node? before) apart)]
    exact parted.whole rule other m before inner

/-- A fold rewrites no token that is held outside the part. -/
theorem Parted.keeps_fold (parted : g.Parted p) (here : p.nodes id) (v : α) :
    g.Keeps p (g.fold id v) where
  node? other outside := by
    rw [node?_fold]
    cases before : g.node? other with
    | none => rfl
    | some m =>
      obtain ⟨t, held⟩ := exists_token (lt_size_of_node? before)
      have unlike : g.token? other ≠ g.token? id := by
        intro same
        exact outside ((parted.tokens other id t held (same ▸ held)).mpr here)
      have apart : other ≠ id := fun same => unlike (congrArg g.token? same)
      simp [unlike, apart]
  token? other _ := g.token?_fold id v other
  size := by simp [Graph.fold]
  tokens := by
    simp only [Graph.fold]
    split <;> simp

theorem Parted.fold (parted : g.Parted p) (here : p.nodes id) (v : α) :
    g.Confined p (g.fold id v) :=
  ⟨parted.parted_fold id v, parted.keeps_fold here v⟩

end Graph

/-- What a change and the next one do, if what each of them does can be taken together. -/
theorem effect_bind_rel {σ β γ : Type} {R : σ → σ → Prop} (trans : ∀ {a b c}, R a b → R b c → R a c)
    {change : ExceptT Failure (StateM σ) β} {next : β → ExceptT Failure (StateM σ) γ} {s : σ}
    (first : R s (effect change s).2)
    (rest : ∀ b s', effect change s = (.ok b, s') → R s s' → R s' (effect (next b) s').2) :
    R s (effect (change >>= next) s).2 := by
  cases done : effect change s with
  | mk result s' =>
    rw [done] at first
    cases result with
    | error f =>
      rw [effect_bind_error done]
      exact first
    | ok b =>
      rw [effect_bind done]
      exact trans first (rest b s' done first)

namespace Edit

variable {p : Part} {g : Graph α} {id : Nat}

theorem confined_bind {β γ : Type} {change : Edit α β} {next : β → Edit α γ}
    (first : g.Confined p (effect change g).2)
    (rest : ∀ b (g' : Graph α), g'.Parted p → g'.Confined p (effect (next b) g').2) :
    g.Confined p (effect (change >>= next) g).2 :=
  effect_bind_rel (R := Graph.Confined p) Graph.Confined.trans first
    fun b g' _ confined => rest b g' confined.parted

variable [Arithmetic α]

/-- All that a fold can do, if it does anything, is to make the node a literal. -/
theorem foldNode_cases (env : Env α) (id : Nat) (g : Graph α) :
    (effect (foldNode env id) g).2 = g ∨ ∃ v, (effect (foldNode env id) g).2 = g.fold id v := by
  rw [foldNode, effect_bind (effect_get g)]
  repeat' split
  all_goals first
    | exact Or.inl rfl
    | exact Or.inr ⟨_, rfl⟩

theorem foldNode_confined (env : Env α) (parted : g.Parted p) (here : p.nodes id) :
    g.Confined p (effect (foldNode env id) g).2 := by
  rcases foldNode_cases env id g with same | ⟨v, folded⟩
  · rw [same]
    exact parted.unchanged
  · rw [folded]
    exact parted.fold here v

theorem simplifyWithin_confined (env : Env α) (parted : g.Parted p) (here : p.nodes id)
    (levels : Nat) : g.Confined p (effect (simplifyWithin env levels id) g).2 := by
  induction levels generalizing g id with
  | zero => exact parted.unchanged
  | succ levels ih =>
    have last {g : Graph α} (parted : g.Parted p) :
        g.Confined p (effect (do let _ ← foldNode env id) g).2 :=
      confined_bind (foldNode_confined env parted here) fun _ _ parted' => parted'.unchanged
    rw [simplifyWithin, effect_bind (effect_get g)]
    dsimp only
    split
    · rename_i l r found
      obtain ⟨left, right⟩ := parted.apart id l r found
      refine confined_bind (ih parted (left.mpr here)) fun _ g' parted' => ?_
      exact confined_bind (ih parted' (right.mpr here)) fun _ g'' parted'' => last parted''
    · exact last parted

theorem simplify_confined (env : Env α) (parted : g.Parted p) (here : p.nodes id) :
    g.Confined p (effect (simplify env id) g).2 := by
  rw [simplify_eq]
  exact simplifyWithin_confined env parted here (id + 1)

end Edit

end Equate
