import Equate.Proofs.Workspace.StrayTokens

/-!
# New operations

An operation is added to an entry if it has an operator, a position and one operand that can be
used. Any other call is refused and leaves the workspace as it was, and an accepted one puts the old
tree and the operand side by side under the operator (`addOperation_outcome`). Whether the new tree
is well-formed is another matter: a token that is offered as an operand is used whatever it is. An
operator or a parenthesis makes a tree that no evaluation gets through, even if all variables have
values, and no fold if the nodes have tokens of their own.
-/

namespace Equate

variable {α : Type}

/-! ### What is accepted -/

def Operation.operator? (g : Graph α) : Operation → Option (Origin × Op)
  | .operator op => some (.introduced, op)
  | .token t =>
    match g.tokens[t]? with
    | some (.operator origin op) => some (origin, op)
    | _ => none
  | .other => none

theorem Operation.operator?_token {g : Graph α} {t : Nat} {origin : Origin} {op : Op} :
    operator? g (.token t) = some (origin, op) ↔ g.tokens[t]? = some (.operator origin op) := by
  rw [operator?]
  cases g.tokens[t]? with
  | none => simp
  | some tok => cases tok <;> simp

/-- Whether a call has failed and has changed nothing: for its size if an integer was too big, and
for a bad value or a bad type if not. -/
def Workspace.Refuses {β : Type} (w : Workspace α) (tooBig : Prop)
    (result : Except Failure β × Workspace α) : Prop :=
  ∃ m : Misuse, result = (.error (.misuse m), w) ∧
    ((tooBig ∧ m.kind = .overflow) ∨ (¬ tooBig ∧ (m.kind = .value ∨ m.kind = .type)))

/-- Whether an entry holds a tree that is well-formed and has a value as far as its variables have
them, exactly on some condition. It can be folded then. Otherwise a fold fails, unless a token is
held by two nodes. -/
structure Workspace.HoldsSound [Arithmetic α] (w : Workspace α) (id : Nat) (t : Tree (Token α))
    (sound : Prop) : Prop where
  tree : effect (Work.tree id) w = (.ok t, w)
  wellFormed : t.WellFormed ↔ sound
  values : (∀ env f, (effect (Work.eval env id) w).1 = .error f →
    ∃ x, f = .expression (.unresolved x)) ↔ sound
  folds : sound → ∀ env, (effect (Work.simplify env id) w).1 = .ok ()
  fails : w.graph.OwnTokens → ¬ sound →
    ∃ env m, (effect (Work.simplify env id) w).1 = .error (.misuse m)

namespace Operand

variable [OfInteger α]

def tree? (g : Graph α) (o : Operand Nat α Nat) : Option (Tree (Token α)) :=
  match o.read with
  | .ok (.tree node) => g.tree? node
  | .ok (.token t) => g.tokens[t]?.map .leaf
  | .ok (.new t) => some (.leaf t)
  | .error _ => none

/-- Whether a tree is offered only if it is that of an expression. -/
def Grows (g : Graph α) (o : Operand Nat α Nat) : Prop :=
  ∀ node, o = .tree node → ∃ f : Expr α, g.tree? node = some f.toTree

end Operand

namespace Work

variable {w w₁ : Workspace α} {id : Nat} {entry : Entry α} {e : Expr α} {t : Tree (Token α)}

/-! ### Trees with an operator on top -/

section Sound

variable [Arithmetic α]

theorem holdsSound_of_wellFormed (found : w.entries[id]? = some entry)
    (shown : w.graph.tree? entry.root = some t) (wellFormed : t.WellFormed) {sound : Prop}
    (is : sound) : w.HoldsSound id t sound := by
  obtain ⟨e, rfl⟩ := wellFormed.exists_expr
  have holds : w.Holds id e := ⟨entry, found, shown⟩
  refine ⟨effect_tree holds, iff_of_true wellFormed is, iff_of_true ?_ is, fun _ env => ?_,
    fun _ not => absurd is not⟩
  · intro env f failed
    rw [effect_eval holds] at failed
    have value := e.eval_of_unbound? env
    split at value
    · obtain ⟨v, value⟩ := value
      rw [value] at failed
      cases failed
    · rw [value] at failed
      exact ⟨_, (Except.error.inj failed).symm⟩
  · obtain ⟨g, done⟩ := Edit.simplify_ok shown env
    rw [simplify, effect_bind (effect_root found), effect_edit done]

/-- If all variables have values, it can only be the stray token that makes a call fail. -/
theorem holdsSound_of_stray [Inhabited α] {origin : Origin} {op : Op} {slot : Slot}
    {tok : Token α} {old leaf : Nat}
    (found : w.entries[id]? = some entry)
    (root : w.graph.node? entry.root = some (.under origin op slot old leaf))
    (stands : w.graph.node? leaf = some (.leaf tok)) (read : w.graph.tree? old = some e.toTree)
    (newer : old < leaf) (stray : ¬ tok.IsOperand) {sound : Prop} (not : ¬ sound) :
    w.HoldsSound id (.under origin op slot e.toTree (.leaf tok)) sound := by
  have shown := Graph.tree?_under read (Graph.treeWithin_leaf stands leaf) root
  have holds := effect_tree_of_entry found shown
  have malformed : ¬ (Tree.under origin op slot e.toTree (.leaf tok)).WellFormed := by
    rwa [Tree.wellFormed_under, Tree.wellFormed_leaf]
  let env : Env α := fun _ => some default
  have bound : ∀ x ∈ e.names, (env x).isSome := fun _ _ => rfl
  obtain ⟨v, value⟩ := e.eval_ok bound
  refine ⟨holds, iff_of_false malformed not, iff_of_false ?_ not, fun is => absurd is not,
    fun own _ => ?_⟩
  · intro values
    obtain ⟨m, failed⟩ := Rpn.eval_stray value stray slot origin op
    have result : (effect (eval env id) w).1 = .error (.misuse m) := by
      rw [eval, effect_bind (effect_rpn_of_tree holds), Tree.toRpn_under, failed]
      rfl
    obtain ⟨x, unresolved⟩ := values env _ result
    cases unresolved
  · obtain ⟨m, g, failed⟩ := Edit.simplify_stray own root stands read newer value stray
    refine ⟨env, m, ?_⟩
    rw [simplify, effect_bind (effect_root found), edit, effect_bind (effect_get w)]
    unfold effect at failed ⊢
    rw [failed]
    rfl

end Sound

/-- The node of a new operation becomes the root of the entry. -/
theorem effect_hang_under (found : w.entries[id]? = some entry)
    (old : entry.root < w.graph.nodes.size) {operand token : Nat}
    (inside : operand < w.graph.nodes.size) {origin : Origin} {op : Op}
    (known : w.graph.tokens[token]? = some (.operator origin op)) (slot : Slot) :
    ∃ w' root, effect (hang id token slot operand) w = (.ok (), w') ∧
      w'.graph.Extends w.graph ∧ w'.entries[id]? = some { entry with root } ∧
      w'.graph.node? root = some (.under origin op slot entry.root operand) := by
  have fits : Links.Fits w.graph.tokens.size w.graph.nodes.size
      ⟨token, some (slot.pick entry.root operand, slot.pick operand entry.root)⟩ := by
    refine ⟨(Array.getElem?_eq_some_iff.mp known).1, ?_⟩
    rintro pair ⟨⟩
    cases slot
    · exact ⟨old, inside⟩
    · exact ⟨inside, old⟩
  refine ⟨_, w.graph.nodes.size, effect_hang found fits, w.graph.extends_place _ fits, ?_, ?_⟩
  · simp [Array.getElem?_modify, found]
  · rw [Graph.node?_place, if_pos rfl, known]
    rfl

/-! ### Operands -/

/-- What is known of the node of an operand: it stands for the operand's tree, and it is a new one
if that is not well-formed. -/
structure Offered (w w₁ : Workspace α) (node : Nat) (t : Tree (Token α)) : Prop where
  entries : w₁.entries = w.entries
  extended : w₁.graph.Extends w.graph
  tokens : ∀ (id : Nat) tok, w.graph.tokens[id]? = some tok → w₁.graph.tokens[id]? = some tok
  shown : w₁.graph.tree? node = some t
  fresh : t.WellFormed ∨
    w.graph.nodes.size ≤ node ∧ ∃ tok, t = .leaf tok ∧ w₁.graph.node? node = some (.leaf tok)

theorem Offered.of_tree {node : Nat} (shown : w.graph.tree? node = some e.toTree) :
    Offered w w node e.toTree where
  entries := rfl
  extended := .refl w.graph
  tokens _ _ known := known
  shown := shown
  fresh := Or.inl (Tree.wellFormed_toTree e)

/-- A token becomes a new leaf, whether it is fit for that or not. -/
theorem Offered.of_token {id : Nat} {tok : Token α} (known : w.graph.tokens[id]? = some tok) :
    ∃ w₁, effect (place ⟨id, none⟩) w = (.ok w.graph.nodes.size, w₁) ∧
      Offered w w₁ w.graph.nodes.size (.leaf tok) := by
  have fits : Links.Fits w.graph.tokens.size w.graph.nodes.size ⟨id, none⟩ :=
    ⟨(Array.getElem?_eq_some_iff.mp known).1, Graph.older_none⟩
  have leaf : (w.graph.place _ fits).node? w.graph.nodes.size = some (.leaf tok) := by
    rw [Graph.node?_place, if_pos rfl, known]
    rfl
  exact ⟨_, effect_place fits, rfl, w.graph.extends_place _ fits, fun _ _ known => known,
    Graph.treeWithin_leaf leaf _, Or.inr ⟨Nat.le_refl _, tok, rfl, leaf⟩⟩

theorem Offered.of_new (tok : Token α) :
    ∃ w₁, effect (do place ⟨← newToken tok, none⟩) w = (.ok w.graph.nodes.size, w₁) ∧
      Offered w w₁ w.graph.nodes.size (.leaf tok) := by
  let w₀ : Workspace α := { w with graph := w.graph.newToken tok }
  have made : effect (newToken tok) w = (.ok w.graph.tokens.size, w₀) := rfl
  have known : w₀.graph.tokens[w.graph.tokens.size]? = some tok := Array.getElem?_push_size
  obtain ⟨w₁, placed, offered⟩ := Offered.of_token known
  refine ⟨w₁, (effect_bind made).trans placed, offered.entries,
    offered.extended.trans (w.graph.extends_newToken tok), ?_, offered.shown, offered.fresh⟩
  intro id tok' known
  apply offered.tokens
  have old := (Array.getElem?_eq_some_iff.mp known).1
  simpa [w₀, Graph.newToken, Array.getElem?_push, Nat.ne_of_lt old] using known

theorem effect_operator {operation : Operation} {origin : Origin} {op : Op}
    (found : operation.operator? w.graph = some (origin, op)) :
    effect (operator operation) w = (.ok op, w) := by
  cases operation with
  | operator op' =>
    cases found
    rfl
  | token t =>
    rw [operator, effect_bind (effect_get w), Operation.operator?_token.mp found]
    rfl
  | other => cases found

variable [OfInteger α]

theorem effect_operandNode {o : Operand Nat α Nat} (grows : o.Grows w.graph) :
    match o.tree? w.graph with
    | some t => ∃ node w₁, effect (operandNode o) w = (.ok node, w₁) ∧ Offered w w₁ node t
    | none => w.Refuses (∃ n, o = .integer n) (effect (operandNode o) w) := by
  have made (tok : Token α) : ∃ node w₁,
      effect (do place ⟨← newToken tok, none⟩) w = (.ok node, w₁) ∧
        Offered w w₁ node (.leaf tok) := ⟨_, Offered.of_new tok⟩
  cases o with
  | tree node =>
    obtain ⟨f, shown⟩ := grows node rfl
    have usable : Operand.tree? w.graph (.tree node) = some f.toTree := shown
    rw [usable]
    exact ⟨node, w, rfl, .of_tree shown⟩
  | token id =>
    cases known : w.graph.tokens[id]? with
    | none =>
      have unusable : Operand.tree? w.graph (.token id) = none := congrArg (Option.map _) known
      have unfit : ¬ Links.Fits w.graph.tokens.size w.graph.nodes.size ⟨id, none⟩ :=
        fun fits => Nat.not_lt.mpr (Array.getElem?_eq_none_iff.mp known) fits.token
      rw [unusable]
      exact ⟨.dangling, effect_place_unfit unfit, Or.inr ⟨by simp, Or.inl rfl⟩⟩
    | some tok =>
      have usable : Operand.tree? w.graph (.token id) = some (.leaf tok) :=
        congrArg (Option.map _) known
      rw [usable]
      exact ⟨_, Offered.of_token known⟩
  | number v => exact made (.literal v)
  | integer n =>
    unfold operandNode Operand.tree?
    rw [Operand.read]
    cases (OfInteger.ofInteger? n : Option α) with
    | some v => exact made (.literal v)
    | none => exact ⟨.integerTooBig, rfl, Or.inl ⟨⟨n, rfl⟩, rfl⟩⟩
  | name x =>
    unfold operandNode Operand.tree?
    rw [Operand.read_name]
    by_cases empty : x = ""
    · rw [if_pos empty]
      exact ⟨.emptyName, rfl, Or.inr ⟨by simp, Or.inr rfl⟩⟩
    · rw [if_neg empty]
      exact made (.name x)
  | boolean => exact ⟨.booleanOperand, rfl, Or.inr ⟨by simp, Or.inr rfl⟩⟩
  | unusable kind => exact ⟨.unusableOperand kind, rfl, Or.inr ⟨by simp, Or.inr rfl⟩⟩

/-- Only a token that was offered as such can make a tree that is not well-formed. -/
theorem wellFormed_iff_of_tree? {o : Operand Nat α Nat} (grows : o.Grows w.graph)
    (usable : o.tree? w.graph = some t) : t.WellFormed ↔
      ∀ (id : Nat) tok, .token id ∈ [o] → w.graph.tokens[id]? = some tok → tok.IsOperand := by
  simp only [List.mem_singleton]
  cases o with
  | tree node =>
    obtain ⟨f, shown⟩ := grows node rfl
    obtain rfl : f.toTree = t := Option.some.inj (shown.symm.trans usable)
    exact iff_of_true (Tree.wellFormed_toTree f) (by rintro _ _ ⟨⟩)
  | token id =>
    obtain ⟨tok, known, rfl⟩ := Option.map_eq_some_iff.mp usable
    rw [Tree.wellFormed_leaf]
    constructor
    · intro operand id' tok' same known'
      cases same
      exact Option.some.inj (known.symm.trans known') ▸ operand
    · exact fun all => all id tok rfl known
  | number v =>
    cases usable
    exact iff_of_true (Tree.wellFormed_toTree (.lit v)) (by rintro _ _ ⟨⟩)
  | integer n =>
    unfold Operand.tree? at usable
    rw [Operand.read] at usable
    cases found : (OfInteger.ofInteger? n : Option α) with
    | some v =>
      rw [found] at usable
      cases usable
      exact iff_of_true (Tree.wellFormed_toTree (.lit v)) (by rintro _ _ ⟨⟩)
    | none =>
      rw [found] at usable
      cases usable
  | name x =>
    unfold Operand.tree? at usable
    rw [Operand.read_name] at usable
    by_cases empty : x = ""
    · rw [if_pos empty] at usable
      cases usable
    · rw [if_neg empty] at usable
      cases usable
      exact iff_of_true (Tree.wellFormed_toTree (.var x)) (by rintro _ _ ⟨⟩)
  | _ => cases usable

/-! ### New operations -/

section Refused

variable {operation : Operation} {position : Int} {origin : Origin} {op : Op}

theorem addOperation_of_none (missing : operation.operator? w.graph = none) (id : Nat)
    (position : Int) (operands : List (Operand Nat α Nat)) :
    w.Refuses False (effect (addOperation id operation position operands) w) := by
  cases operation with
  | operator op => cases missing
  | token t =>
    rw [addOperation, operator, bind_assoc, effect_bind (effect_get w)]
    rw [Operation.operator?] at missing
    cases known : w.graph.tokens[t]? with
    | none => exact ⟨.dangling, rfl, Or.inr ⟨not_false, Or.inl rfl⟩⟩
    | some tok =>
      rw [known] at missing
      cases tok with
      | operator origin op => cases missing
      | _ => exact ⟨.notAnOperatorToken, rfl, Or.inr ⟨not_false, Or.inl rfl⟩⟩
  | other => exact ⟨.notAnOperation, rfl, Or.inr ⟨not_false, Or.inr rfl⟩⟩

theorem addOperation_of_unfit (found : operation.operator? w.graph = some (origin, op))
    {operands : List (Operand Nat α Nat)}
    (unfit : Slot.ofIndex? position = none ∨ operands.length ≠ 1) :
    w.Refuses False (effect (addOperation id operation position operands) w) := by
  rw [addOperation, effect_bind (effect_operator found)]
  cases place : Slot.ofIndex? position with
  | none => exact ⟨.positionOutOfRange op.arity position, rfl, Or.inr ⟨not_false, Or.inl rfl⟩⟩
  | some slot =>
    match operands with
    | [] | _ :: _ :: _ => exact ⟨.totalOperands op.arity, rfl, Or.inr ⟨not_false, Or.inl rfl⟩⟩
    | [o] => exact unfit.elim (fun missing => nomatch place.symm.trans missing) (absurd rfl)

end Refused

section Accepted

variable {operation : Operation} {position : Int} {origin : Origin} {op : Op} {slot : Slot}
  {o : Operand Nat α Nat} {node : Nat}

theorem effect_addOperation (found : w.entries[id]? = some entry)
    (old : entry.root < w.graph.nodes.size)
    (operator : operation.operator? w.graph = some (origin, op))
    (place : Slot.ofIndex? position = some slot)
    (read : effect (operandNode o) w = (.ok node, w₁)) (offered : Offered w w₁ node t) :
    ∃ w' root, effect (addOperation id operation position [o]) w = (.ok (), w') ∧
      w'.graph.Extends w₁.graph ∧ w'.entries[id]? = some { entry with root } ∧
      w'.graph.node? root = some (.under origin op slot entry.root node) := by
  obtain ⟨n, root, -⟩ := Graph.treeWithin_cases offered.shown
  have inside := Graph.lt_size_of_node? root
  have old₁ : entry.root < w₁.graph.nodes.size := by
    obtain ⟨n, known⟩ := Graph.exists_node old
    exact Graph.lt_size_of_node? (offered.extended.node? _ _ known)
  have found₁ : w₁.entries[id]? = some entry := offered.entries ▸ found
  rw [addOperation, effect_bind (effect_operator operator)]
  simp only [place]
  rw [effect_bind read]
  cases operation with
  | token t =>
    have known := offered.tokens t _ (Operation.operator?_token.mp operator)
    exact effect_hang_under found₁ old₁ inside known slot
  | operator op' =>
    cases operator
    let w₂ : Workspace α := { w₁ with graph := w₁.graph.newToken (.operator .introduced op) }
    have known : w₂.graph.tokens[w₁.graph.tokens.size]? = some (.operator .introduced op) :=
      Array.getElem?_push_size
    obtain ⟨w', root, done, extended, rest⟩ :=
      effect_hang_under (w := w₂) found₁ old₁ inside known slot
    exact ⟨w', root, done, extended.trans (w₁.graph.extends_newToken _), rest⟩
  | other => cases operator

variable [Arithmetic α] [Inhabited α]

/-- A call with one operand, whose operator and position are right. -/
theorem addOperation_operand (holds : w.Holds id e)
    (operator : operation.operator? w.graph = some (origin, op))
    (place : Slot.ofIndex? position = some slot) (grows : o.Grows w.graph) :
    match o.tree? w.graph with
    | some t => ∃ w', effect (addOperation id operation position [o]) w = (.ok (), w') ∧
      w'.HoldsSound id (.under origin op slot e.toTree t)
        (∀ (id : Nat) tok, .token id ∈ [o] → w.graph.tokens[id]? = some tok → tok.IsOperand)
    | none =>
      w.Refuses (∃ n, o = .integer n) (effect (addOperation id operation position [o]) w) := by
  obtain ⟨entry, found, shown⟩ := holds
  have outcome := effect_operandNode grows
  cases usable : o.tree? w.graph with
  | none =>
    rw [usable] at outcome
    obtain ⟨m, failed, kind⟩ := outcome
    refine ⟨m, ?_, kind⟩
    rw [addOperation, effect_bind (effect_operator operator)]
    simp only [place]
    exact effect_bind_error failed
  | some t =>
    rw [usable] at outcome
    obtain ⟨node, w₁, read, offered⟩ := outcome
    have old := Graph.Reads.lt_size shown
    obtain ⟨w', root, done, extended, found', root'⟩ :=
      effect_addOperation found old operator place read offered
    have shown' : w'.graph.tree? entry.root = some e.toTree :=
      (extended.trans offered.extended).treeWithin shown (Nat.le_refl _)
    rw [← propext (wellFormed_iff_of_tree? grows usable)]
    refine ⟨w', done, ?_⟩
    rcases offered.fresh with wellFormed | ⟨fresh, tok, rfl, leaf⟩
    · have new := extended.treeWithin offered.shown (Nat.le_refl _)
      exact holdsSound_of_wellFormed found' (Graph.tree?_under shown' new root')
        (Tree.wellFormed_under.mpr wellFormed) wellFormed
    · by_cases fit : (Tree.leaf tok).WellFormed
      · have new := extended.treeWithin offered.shown (Nat.le_refl _)
        exact holdsSound_of_wellFormed found' (Graph.tree?_under shown' new root')
          (Tree.wellFormed_under.mpr fit) fit
      · exact holdsSound_of_stray found' root' (extended.node? _ _ leaf) shown'
          (Nat.lt_of_lt_of_le old fresh) (mt Tree.wellFormed_leaf.mpr fit) fit

end Accepted

/-- A call is refused, or the old tree and the operand come under the operator. The new tree is
well-formed, and can be evaluated and folded, exactly if no operator and no parenthesis was offered
as an operand. -/
theorem addOperation_outcome [Arithmetic α] [Inhabited α] (holds : w.Holds id e)
    (operation : Operation) (position : Int) {operands : List (Operand Nat α Nat)}
    (trees : ∀ node, .tree node ∈ operands → ∃ f : Expr α, w.graph.tree? node = some f.toTree) :
    match operation.operator? w.graph, Slot.ofIndex? position,
      operands.map (Operand.tree? w.graph) with
    | some (origin, op), some slot, [some t] =>
      ∃ w', effect (addOperation id operation position operands) w = (.ok (), w') ∧
        w'.HoldsSound id (.under origin op slot e.toTree t)
          (∀ (id : Nat) tok, .token id ∈ operands → w.graph.tokens[id]? = some tok → tok.IsOperand)
    | some _, some _, [none] => w.Refuses (∃ n, operands = [.integer n])
      (effect (addOperation id operation position operands) w)
    | _, _, _ => w.Refuses False (effect (addOperation id operation position operands) w) := by
  cases operator : operation.operator? w.graph with
  | none => exact addOperation_of_none operator id position operands
  | some both =>
    obtain ⟨origin, op⟩ := both
    cases place : Slot.ofIndex? position with
    | none => exact addOperation_of_unfit operator (Or.inl place)
    | some slot =>
      match operands with
      | [] => exact addOperation_of_unfit operator (Or.inr Nat.zero_ne_one)
      | o :: o' :: rest =>
        have many : w.Refuses False
            (effect (addOperation id operation position (o :: o' :: rest)) w) :=
          addOperation_of_unfit operator (Or.inr (by simp))
        cases usable : o.tree? w.graph <;> simpa [usable] using many
      | [o] =>
        have outcome := addOperation_operand holds operator place fun node same =>
          trees node (same ▸ List.mem_cons_self)
        rw [List.map_singleton]
        cases usable : o.tree? w.graph with
        | none =>
          rw [usable] at outcome
          simpa using outcome
        | some t =>
          rw [usable] at outcome
          exact outcome

/-- The entry `x + 2` is divided by its own tree. -/
theorem addOperation_outcome_of_own_tree :
    let e : Expr Float := .node .parsed .add (.var "x") (.lit 2)
    let w : Workspace Float := ⟨(Graph.empty.addExpr e).graph, #[⟨2, []⟩]⟩
    w.Holds 0 e ∧ w.graph.tree? 2 = some e.toTree ∧
      ∃ w', effect (addOperation 0 (.operator .div) 1 [.tree 2]) w = (.ok (), w') ∧
        w'.HoldsSound 0 (.under .introduced .div .right e.toTree e.toTree)
          (∀ (id : Nat) tok, .token id ∈ [(.tree 2 : Operand Nat Float Nat)] →
            w.graph.tokens[id]? = some tok → tok.IsOperand) := by
  intro e w
  have holds : w.Holds 0 e := ⟨⟨2, []⟩, rfl, rfl⟩
  have whole : w.graph.tree? 2 = some e.toTree := rfl
  have trees : ∀ node, .tree node ∈ [(.tree 2 : Operand Nat Float Nat)] →
      ∃ f : Expr Float, w.graph.tree? node = some f.toTree := by
    simpa using ⟨e, whole⟩
  exact ⟨holds, whole, addOperation_outcome holds (.operator .div) 1 trees⟩

/-- The literal `3` gets a `*` added to it. -/
theorem addOperation_takes_operator :
    let w : Workspace Float :=
      ⟨(Graph.empty.addExpr (.lit 3)).graph.newToken (.operator .parsed .mul), #[⟨0, []⟩]⟩
    let result := effect (addOperation 0 (.operator .add) 0 [.token 1]) w
    w.Holds 0 (.lit 3) ∧ w.graph.tokens[1]? = some (.operator .parsed .mul) ∧ result.1 = .ok () ∧
      (∃ t, effect (tree 0) result.2 = (.ok t, result.2) ∧ ¬ t.WellFormed) ∧
      (effect (simplify (fun _ => none) 0) result.2).1 = .error (.misuse .childlessOperator) ∧
      (effect (eval (fun _ => none) 0) result.2).1 = .error (.misuse (.operandCount .mul 1)) := by
  intro w result
  let t : Tree (Token Float) :=
    .under .introduced .add .left (Expr.lit 3).toTree (.leaf (.operator .parsed .mul))
  have shown : effect (tree 0) result.2 = (.ok t, result.2) := rfl
  refine ⟨⟨⟨0, []⟩, rfl, rfl⟩, rfl, rfl, ⟨t, shown, ?_⟩, ?_, ?_⟩
  · rw [Tree.wellFormed_under, Tree.wellFormed_leaf]
    rintro ⟨e, isLeaf, token⟩
    cases e with
    | node => cases isLeaf
    | _ => cases token
  · have root : effect (root 0) result.2 = (.ok 2, result.2) := rfl
    rw [simplify, effect_bind root, Edit.simplify_eq]
    rfl
  · rw [eval, effect_bind (effect_rpn_of_tree shown), Tree.toRpn_under]
    rfl

end Work

end Equate
