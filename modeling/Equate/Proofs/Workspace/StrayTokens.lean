import Equate.Proofs.Workspace.Pairs
import Equate.Proofs.Workspace.WellFormed

/-!
# Stray tokens

A new operation has the old tree and an operand under it (`Tree.under`). The operand can be a leaf
with any token. If the token is an operator or a parenthesis, the new tree is not well-formed, and
neither an evaluation nor a fold of it succeeds where the old tree has a value: `Rpn.eval_stray`,
`Edit.simplify_stray`. The fold succeeds after all if the token is in the old tree as well and is
rewritten there in time. Without such tokens no fold fails, whatever nodes have in common:
`Edit.simplify_ok`.
-/

namespace Equate

variable {α : Type}

/-! ### The new tree -/

/-- The tree of a new operation, with the old tree in the given slot. -/
def Tree.under (origin : Origin) (op : Op) (slot : Slot) (old operand : Tree (Token α)) :
    Tree (Token α) :=
  .node (.operator origin op) [slot.pick old operand, slot.pick operand old]

def Node.under (origin : Origin) (op : Op) (slot : Slot) (old operand : Nat) : Node α :=
  .inner origin op (slot.pick old operand) (slot.pick operand old)

namespace Tree

theorem wellFormed_leaf {t : Token α} : (leaf t).WellFormed ↔ t.IsOperand := by
  constructor
  · intro wellFormed
    obtain ⟨e, same⟩ := wellFormed.exists_expr
    exact ⟨e, Expr.toTree_leaf same⟩
  · rintro ⟨e, isLeaf, rfl⟩
    refine wellFormed_iff.mpr ⟨e, ?_⟩
    cases e with
    | node => cases isLeaf
    | _ => rfl

theorem wellFormed_under {origin : Origin} {op : Op} {slot : Slot} {e : Expr α}
    {t : Tree (Token α)} : (under origin op slot e.toTree t).WellFormed ↔ t.WellFormed := by
  have old := wellFormed_toTree e
  have fits : (under origin op slot e.toTree t).Fits :=
    ⟨by simp [under, isLeaf, payload, Token.isLiteral, Token.isVariable],
      fun _ => ⟨rfl, rfl, rfl⟩⟩
  rw [wellFormed_iff_children, and_iff_right fits, under, children, List.forall_mem_cons,
    List.forall_mem_singleton]
  cases slot with
  | left => exact and_iff_right old
  | right => exact and_iff_left old

/-- A leaf is listed on its side of the old tree, whatever its token is. -/
theorem toRpn_under (origin : Origin) (op : Op) (slot : Slot) (e : Expr α) (t : Token α) :
    (under origin op slot e.toTree (.leaf t)).toRpn =
      slot.pick (e.toRpn ++ [t]) (t :: e.toRpn) ++ [.operator origin op] := by
  cases slot <;> simp [under, Slot.pick, e.toRpn_toTree]

end Tree

namespace Graph

variable {g : Graph α} {id old operand : Nat} {s t : Tree (Token α)}

theorem tree?_under {origin : Origin} {op : Op} {slot : Slot} (showsOld : g.tree? old = some s)
    (showsNew : g.tree? operand = some t)
    (found : g.node? id = some (.under origin op slot old operand)) :
    g.tree? id = some (.under origin op slot s t) := by
  obtain ⟨olderLeft, olderRight⟩ := older_of_node? found rfl
  cases slot with
  | left =>
    exact treeWithin_node found ((Extends.refl g).treeWithin showsOld olderLeft)
      ((Extends.refl g).treeWithin showsNew olderRight)
  | right =>
    exact treeWithin_node found ((Extends.refl g).treeWithin showsNew olderLeft)
      ((Extends.refl g).treeWithin showsOld olderRight)

/-- Whether some nodes have their operands among them, and no operator or parenthesis as a leaf. -/
structure Clean (g : Graph α) (nodes : Nat → Prop) : Prop where
  leaves : ∀ id t, nodes id → g.node? id = some (.leaf t) → t.IsOperand
  operands : ∀ id l r, nodes id → g.operands? id = some (l, r) → nodes l ∧ nodes r

/-- The nodes that stand for expressions. Some of them may have their token in common. -/
theorem clean_exprs (g : Graph α) : g.Clean fun id => ∃ e : Expr α, g.tree? id = some e.toTree where
  leaves id t holds found := by
    obtain ⟨e, shown⟩ := holds
    rcases Reads.cases shown with ⟨t', leaf, isLeaf, rfl⟩ | ⟨_, _, _, _, _, _, _, inner, -⟩
    · rw [found] at leaf
      cases leaf
      exact ⟨e, isLeaf, rfl⟩
    · rw [found] at inner
      cases inner
  operands id l r holds below := by
    obtain ⟨e, shown⟩ := holds
    rcases Reads.cases shown with ⟨t, leaf, -⟩ | ⟨_, _, e₁, e₂, _, _, -, inner, first, second⟩
    · rw [operands?_of_node? leaf] at below
      cases below
    · rw [operands?_of_node? inner] at below
      cases below
      exact ⟨⟨e₁, first.tree?⟩, ⟨e₂, second.tree?⟩⟩

/-- A fold makes literals of leaves and of operators, and adds no operands. -/
theorem Clean.fold {nodes : Nat → Prop} (clean : g.Clean nodes) (target : Nat) (v : α) :
    (g.fold target v).Clean nodes where
  leaves id t here found := by
    rw [node?_fold] at found
    obtain ⟨⟨t', operands⟩, before, made⟩ := Option.map_eq_some_iff.mp found
    obtain ⟨rfl, below⟩ := Node.mk.inj made
    split
    · exact Token.isOperand_literal v
    · rename_i apart
      rw [if_neg fun same => apart (congrArg g.token? same)] at below
      cases below
      exact clean.leaves id t' here before
  operands id l r here below := by
    rw [operands?_fold] at below
    split at below
    · cases below
    · exact clean.operands id l r here below

end Graph

/-! ### Stray tokens -/

section Stray

variable [Arithmetic α] {env : Env α} {e : Expr α} {v : α} {t : Token α}

theorem Rpn.eval_stray (value : e.eval env = .ok v) (stray : ¬ t.IsOperand) (slot : Slot)
    (origin : Origin) (op : Op) :
    ∃ m, eval env (slot.pick (e.toRpn ++ [t]) (t :: e.toRpn) ++ [.operator origin op]) =
      .error (.misuse m) := by
  rw [e.eval_eq_readM] at value
  cases slot with
  | left =>
    rw [Slot.pick, List.append_assoc, eval, reduceM, e.foldlM_reduceStep, value]
    cases t with
    | literal v => exact absurd (Token.isOperand_literal v) stray
    | name x => exact absurd (Token.isOperand_name x) stray
    | _ => exact ⟨_, rfl⟩
  | right =>
    rw [Slot.pick, eval, reduceM, List.cons_append]
    cases t with
    | literal v => exact absurd (Token.isOperand_literal v) stray
    | name x => exact absurd (Token.isOperand_name x) stray
    | _ => exact ⟨_, rfl⟩

namespace Edit

variable {g : Graph α} {id other levels : Nat}

/-- Where no leaf is stray, a node can be folded, or is left as it is. -/
theorem foldNode_clean {nodes : Nat → Prop} (clean : g.Clean nodes) (here : nodes id)
    (env : Env α) : ∃ b g', effect (foldNode env id) g = (.ok b, g') ∧ g'.Clean nodes := by
  cases found : g.node? id with
  | none =>
    refine ⟨false, g, ?_, clean⟩
    rw [foldNode, effect_bind (effect_get g), found]
    rfl
  | some n =>
    by_cases operator : n.token.isOperator = true
    case neg =>
      exact ⟨false, g, foldNode_other found (Bool.eq_false_iff.mpr operator), clean⟩
    obtain ⟨t, operands⟩ := n
    cases t with
    | operator o op =>
      cases operands with
      | none =>
        obtain ⟨e, leaf, token⟩ := clean.leaves id _ here found
        cases e with
        | node => cases leaf
        | _ => cases token
      | some pair =>
        obtain ⟨l, r⟩ := pair
        obtain ⟨hereLeft, hereRight⟩ :=
          clean.operands id l r here (Graph.operands?_of_node? found)
        cases left : g.leafToken? l with
        | none => exact ⟨false, g, foldNode_inner found (Or.inl left), clean⟩
        | some a =>
          cases right : g.leafToken? r with
          | none => exact ⟨false, g, foldNode_inner found (Or.inr right), clean⟩
          | some b =>
            obtain ⟨e₁, isLeft, rfl⟩ :=
              clean.leaves l a hereLeft (Graph.node?_of_leafToken? left)
            obtain ⟨e₂, isRight, rfl⟩ :=
              clean.leaves r b hereRight (Graph.node?_of_leafToken? right)
            have outcome := (Expr.node o op e₁ e₂).eval_of_unbound? env
            rw [← Expr.eval_tokens isLeft isRight] at outcome
            split at outcome
            · obtain ⟨v, value⟩ := outcome
              exact ⟨true, _, foldNode_value found left right value, clean.fold id v⟩
            · exact ⟨false, g, foldNode_unresolved found left right outcome, clean⟩
    | _ => cases operator

theorem simplifyWithin_clean {nodes : Nat → Prop} (clean : g.Clean nodes) (here : nodes id)
    (env : Env α) (levels : Nat) :
    ∃ g', effect (simplifyWithin env levels id) g = (.ok (), g') ∧ g'.Clean nodes := by
  induction levels generalizing g id with
  | zero => exact ⟨g, rfl, clean⟩
  | succ levels ih =>
    rw [simplifyWithin, effect_bind (effect_get g)]
    cases below : g.operands? id with
    | none =>
      obtain ⟨b, g', folds, clean'⟩ := foldNode_clean clean here env
      exact ⟨g', effect_bind folds, clean'⟩
    | some pair =>
      obtain ⟨l, r⟩ := pair
      obtain ⟨hereLeft, hereRight⟩ := clean.operands id l r here below
      obtain ⟨g₁, doneLeft, clean₁⟩ := ih clean hereLeft
      obtain ⟨g₂, doneRight, clean₂⟩ := ih clean₁ hereRight
      obtain ⟨b, g', folds, clean'⟩ := foldNode_clean clean₂ here env
      exact ⟨g', (effect_bind doneLeft).trans ((effect_bind doneRight).trans (effect_bind folds)),
        clean'⟩

/-- A fold of an expression does not fail, whatever tokens its nodes have in common. -/
theorem simplify_ok {e : Expr α} (shown : g.tree? id = some e.toTree) (env : Env α) :
    ∃ g', effect (simplify env id) g = (.ok (), g') := by
  rw [simplify_eq]
  obtain ⟨g', done, -⟩ := simplifyWithin_clean g.clean_exprs ⟨e, shown⟩ env (id + 1)
  exact ⟨g', done⟩

/-- Folds below a node leave the newer nodes alone if these have tokens of their own. -/
theorem simplifyWithin_newer (own : g.OwnTokens) (env : Env α) (levels : Nat)
    (newer : id < other) :
    (effect (simplifyWithin env levels id) g).2.node? other = g.node? other := by
  let Spares (g g' : Graph α) : Prop :=
    g.OwnTokens → g'.OwnTokens ∧ g'.node? other = g.node? other
  have trans {g g' g'' : Graph α} (first : Spares g g') (second : Spares g' g'') :
      Spares g g'' := by
    intro own
    obtain ⟨own', same⟩ := first own
    obtain ⟨own'', same'⟩ := second own'
    exact ⟨own'', same'.trans same⟩
  suffices spares : Spares g (effect (simplifyWithin env levels id) g).2 from (spares own).2
  clear own
  induction levels generalizing g id with
  | zero => exact fun own => ⟨own, rfl⟩
  | succ levels ih =>
    have last (g : Graph α) : Spares g (effect (do let _ ← foldNode env id) g).2 := by
      refine effect_bind_rel (R := Spares) trans ?_ fun _ _ _ _ own => ⟨own, rfl⟩
      rcases foldNode_cases env id g with same | ⟨v, folded⟩
      · rw [same]
        exact fun own => ⟨own, rfl⟩
      · rw [folded]
        exact fun own => ⟨own.of_tokens (g.token?_fold id v),
          Graph.node?_fold_other own (Nat.ne_of_gt newer) v⟩
    rw [simplifyWithin, effect_bind (effect_get g)]
    dsimp only
    split
    · rename_i l r below
      obtain ⟨left, right⟩ := g.older below
      refine effect_bind_rel (R := Spares) trans (ih (Nat.lt_trans left newer)) fun _ g' _ _ => ?_
      exact effect_bind_rel (R := Spares) trans (ih (Nat.lt_trans right newer))
        fun _ g'' _ _ => last g''
    · exact last g

theorem simplifyWithin_leaf (env : Env α) (found : g.node? id = some (.leaf t)) (levels : Nat) :
    effect (simplifyWithin env (levels + 1) id) g =
      (if t.isOperator then .error (.misuse .childlessOperator) else .ok (), g) := by
  have alone : g.operands? id = none := Graph.operands?_of_node? found
  rw [simplifyWithin, effect_bind (effect_get g), alone]
  by_cases operator : t.isOperator = true
  · rw [if_pos operator]
    refine effect_bind_error ?_
    rw [foldNode, effect_bind (effect_get g), found]
    cases t with
    | operator => rfl
    | _ => cases operator
  · rw [if_neg operator]
    exact effect_bind (foldNode_other found (Bool.eq_false_iff.mpr operator))

theorem foldNode_stray {origin : Origin} {op : Op} {slot : Slot} {old leaf : Nat}
    (root : g.node? id = some (.under origin op slot old leaf))
    (found : g.node? leaf = some (.leaf t)) (reads : g.Reads levels old e)
    (isLeaf : e.isLeaf = true) (value : e.eval env = .ok v) (stray : ¬ t.IsOperand) :
    ∃ m, effect (foldNode env id) g = (.error (.misuse m), g) := by
  have leafOld := Graph.leafToken?_of_isLeaf reads isLeaf
  have leafNew : g.leafToken? leaf = some t := by rw [Graph.leafToken?, found]
  obtain ⟨m, failed⟩ := Rpn.eval_stray value stray slot origin op
  rw [Expr.toRpn_of_isLeaf isLeaf] at failed
  refine ⟨m, ?_⟩
  rw [foldNode, effect_bind (effect_get g), root]
  cases slot <;> simp only [Slot.pick, List.cons_append, List.nil_append] at failed <;>
    simp only [Node.under, Slot.pick, leafOld, leafNew, failed] <;> rfl

/-- An operator at a leaf stops the pass there. A parenthesis stops it at the root, as the old tree
has become a value. -/
theorem simplify_stray {origin : Origin} {op : Op} {slot : Slot} {old leaf : Nat}
    (own : g.OwnTokens) (root : g.node? id = some (.under origin op slot old leaf))
    (found : g.node? leaf = some (.leaf t)) (shown : g.tree? old = some e.toTree)
    (newer : old < leaf) (value : e.eval env = .ok v) (stray : ¬ t.IsOperand) :
    ∃ m g', effect (simplify env id) g = (.error (.misuse m), g') := by
  have below : g.operands? id = some (slot.pick old leaf, slot.pick leaf old) :=
    Graph.operands?_of_node? root
  have inside : leaf < id := by
    have older := g.older below
    cases slot
    · exact older.2
    · exact older.1
  have reads : g.Reads id old e := Graph.Reads.mono shown (Nat.lt_trans newer inside)
  obtain ⟨g₁, done, reads₁, -⟩ := simplifyWithin_reads own env reads
  have spared {other : Nat} (newer : old < other) : g₁.node? other = g.node? other := by
    have same := simplifyWithin_newer own env id newer
    rwa [done] at same
  have root₁ := (spared (Nat.lt_trans newer inside)).trans root
  have found₁ := (spared newer).trans found
  have isLeaf := Expr.isLeaf_simplify value
  have value₁ := (e.eval_simplify (Env.extends_self env)).trans value
  obtain ⟨m, failed⟩ := foldNode_stray root₁ found₁ reads₁ isLeaf value₁ stray
  obtain ⟨levels, rfl⟩ := Nat.exists_eq_succ_of_ne_zero (Nat.ne_of_gt (Nat.zero_lt_of_lt inside))
  have visit := simplifyWithin_leaf env found levels
  have visit₁ := simplifyWithin_leaf env found₁ levels
  rw [simplify_eq, simplifyWithin, effect_bind (effect_get g), below]
  -- the slot tells whether the leaf is visited before the old tree is folded or after that
  cases operator : t.isOperator with
  | true =>
    rw [operator, if_pos rfl] at visit visit₁
    cases slot with
    | left => exact ⟨_, g₁, (effect_bind done).trans (effect_bind_error visit₁)⟩
    | right => exact ⟨_, g, effect_bind_error visit⟩
  | false =>
    rw [operator, if_neg Bool.false_ne_true] at visit visit₁
    refine ⟨m, g₁, ?_⟩
    cases slot with
    | left => exact (effect_bind done).trans ((effect_bind visit₁).trans (effect_bind_error failed))
    | right => exact (effect_bind visit).trans ((effect_bind done).trans (effect_bind_error failed))

end Edit

end Stray

end Equate
