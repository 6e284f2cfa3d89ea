import Equate.Proofs.Workspace.Parts

/-!
# Work on a part of a workspace

Entries and nodes together make a part of a workspace when the trees of these entries, and of no
others, are in it. Work that is done on entries of the part stays there: `Workspace.Confined` tells
what it leaves alone, and each operation has a lemma of that name, down to `solve_confined`.
-/

namespace Equate

variable {α : Type}

namespace Workspace

/-- Whether the nodes of a part are apart, and its entries are those that have their roots there. -/
structure Parted (p : Part) (w : Workspace α) : Prop where
  graph : w.graph.Parted p
  roots : ∀ id entry, w.entries[id]? = some entry →
    entry.root < w.graph.nodes.size ∧ (p.nodes entry.root ↔ p.entries id)

structure Confined (p : Part) (w w' : Workspace α) : Prop where
  parted : w'.Parted p
  graph : w.graph.Keeps p w'.graph
  entries : ∀ id, ¬ p.entries id → w'.entries[id]? = w.entries[id]?
  size : w.entries.size ≤ w'.entries.size

variable {p : Part} {w w' w'' : Workspace α} {id : Nat}

theorem Confined.graphs (confined : w.Confined p w') : w.graph.Confined p w'.graph :=
  ⟨confined.parted.graph, confined.graph⟩

theorem Parted.unchanged (parted : w.Parted p) : w.Confined p w :=
  ⟨parted, .refl _, fun _ _ => rfl, Nat.le_refl _⟩

theorem Confined.trans (first : w.Confined p w') (second : w'.Confined p w'') :
    w.Confined p w'' where
  parted := second.parted
  graph := first.graph.trans second.graph
  entries id other := (second.entries id other).trans (first.entries id other)
  size := Nat.le_trans first.size second.size

/-- Changes of the graph alone. -/
theorem Parted.confined {g : Graph α} (parted : w.Parted p)
    (confined : w.graph.Confined p g) : w.Confined p { w with graph := g } where
  parted := ⟨confined.parted, fun id entry found =>
    ⟨Nat.lt_of_lt_of_le (parted.roots id entry found).1 confined.kept.size,
      (parted.roots id entry found).2⟩⟩
  graph := confined.kept
  entries _ _ := rfl
  size := Nat.le_refl _

theorem Parted.has_root (parted : w.Parted p) (mine : p.entries id) {entry : Entry α}
    (found : w.entries[id]? = some entry) : w.graph.Has p entry.root :=
  ⟨(parted.roots id entry found).2.mpr mine, (parted.roots id entry found).1⟩

/-- If no token is held by two nodes, every entry holds an expression. -/
theorem Parted.holds (parted : w.Parted p) (once : p.once) (inside : id < w.entries.size) :
    ∃ e, w.Holds id e := by
  have found : w.entries[id]? = some w.entries[id] := Array.getElem?_eq_getElem inside
  obtain ⟨e, reads⟩ := parted.graph.reads once (parted.roots id _ found).1
  exact ⟨e, _, found, reads⟩

end Workspace

namespace Work

section Looks

variable {β γ : Type} {p : Part} {w : Workspace α} {id : Nat}

def Looks (work : Work α β) : Prop := ∀ w, (effect work w).2 = w

theorem looks_bind {work : Work α β} {next : β → Work α γ} (first : Looks work)
    (rest : ∀ b, Looks (next b)) : Looks (work >>= next) := by
  intro w
  refine (effect_bind_rel (R := fun w w' : Workspace α => w' = w)
    (fun first second => second.trans first) (first w) ?_)
  intro b w' _ _
  exact rest b w'

theorem looks_pure (b : β) : Looks (pure b : Work α β) := fun _ => rfl

theorem looks_throw (f : Failure) : Looks (throw f : Work α β) := fun _ => rfl

theorem looks_found (b : Option β) : Looks (found b : Work α β) := by
  cases b <;> exact fun _ => rfl

theorem looks_entry (id : Nat) : Looks (entry id : Work α (Entry α)) :=
  looks_bind (fun _ => rfl) fun _ => looks_found _

theorem looks_root (id : Nat) : Looks (root id : Work α Nat) :=
  looks_bind (looks_entry id) fun _ => looks_pure _

theorem looks_tree (id : Nat) : Looks (tree id : Work α (Tree (Token α))) :=
  looks_bind (looks_root id) fun _ => looks_bind (fun _ => rfl) fun _ => looks_found _

theorem looks_rpn (id : Nat) : Looks (rpn id : Work α (List (Token α))) :=
  looks_bind (looks_tree id) fun _ => looks_pure _

theorem looks_sides (eq : EquationEntry) : Looks (sides eq : Work α _) :=
  looks_bind (looks_tree eq.lhs) fun _ => looks_bind (looks_tree eq.rhs) fun _ => looks_pure _

theorem looks_eval [Arithmetic α] (env : Env α) (id : Nat) : Looks (eval env id) := by
  refine looks_bind (looks_rpn id) fun tokens => ?_
  split
  · exact looks_pure _
  · exact looks_throw _

theorem Looks.confined {work : Work α β} (looks : Looks work) (parted : w.Parted p) :
    w.Confined p (effect work w).2 := by
  rw [looks w]
  exact parted.unchanged

end Looks

section Confined

variable {β γ : Type} {p : Part} {w : Workspace α} {id : Nat}

theorem confined_bind {work : Work α β} {next : β → Work α γ}
    (first : w.Confined p (effect work w).2)
    (rest : ∀ b (w' : Workspace α), effect work w = (.ok b, w') → w.Confined p w' →
      w'.Confined p (effect (next b) w').2) :
    w.Confined p (effect (work >>= next) w).2 :=
  effect_bind_rel (R := Workspace.Confined p) Workspace.Confined.trans first rest

theorem effect_entry_none (missing : w.entries[id]? = none) :
    effect (entry id) w = (.error (.misuse .dangling), w) := by
  rw [entry, effect_bind (effect_get w), missing]
  rfl

/-- Work that goes on with the root of an entry of the part. -/
theorem confined_root {next : Nat → Work α γ} (parted : w.Parted p) (mine : p.entries id)
    (rest : ∀ node, w.graph.Has p node → w.Confined p (effect (next node) w).2) :
    w.Confined p (effect (root id >>= next) w).2 := by
  cases found : w.entries[id]? with
  | none =>
    rw [root, effect_bind_error (effect_bind_error (effect_entry_none found))]
    exact parted.unchanged
  | some entry =>
    rw [effect_bind (effect_root found)]
    exact rest entry.root (parted.has_root mine found)

theorem confined_found {b : Option β} {next : β → Work α γ} (parted : w.Parted p)
    (rest : ∀ c, b = some c → w.Confined p (effect (next c) w).2) :
    w.Confined p (effect (found b >>= next) w).2 := by
  cases b with
  | none => exact parted.unchanged
  | some c => exact rest c rfl

theorem confined_edit {edit : Edit α β} (parted : w.Parted p)
    (confined : w.graph.Confined p (effect edit w.graph).2) :
    w.Confined p (effect (Work.edit edit) w).2 := by
  have state : (effect (Work.edit edit) w).2 = { w with graph := (effect edit w.graph).2 } := by
    rw [Work.edit, effect_bind (effect_get w)]
    unfold effect
    cases edit.run.run w.graph with
    | mk result g => cases result <;> rfl
  rw [state]
  exact parted.confined confined

theorem newToken_confined (parted : w.Parted p) (t : Token α) :
    w.Confined p (effect (newToken t) w).2 :=
  parted.confined (parted.graph.newToken t)

theorem place_confined {n : Links} {next : Nat → Work α γ} (parted : w.Parted p)
    (lent : w.graph.Lent p n.token) (suits : w.graph.Suits p n)
    (rest : ∀ node (w' : Workspace α), w.Confined p w' → w'.graph.Has p node →
      w'.Confined p (effect (next node) w').2) :
    w.Confined p (effect (place n >>= next) w).2 := by
  by_cases fits : n.Fits w.graph.tokens.size w.graph.nodes.size
  · obtain ⟨confined, has⟩ := parted.graph.place lent suits fits
    have inGraph := parted.confined confined
    rw [effect_bind (effect_place fits)]
    exact inGraph.trans (rest _ _ inGraph has)
  · rw [effect_bind_error (effect_place_unfit fits)]
    exact parted.unchanged

theorem addExpr_confined (parted : w.Parted p) (e : Expr α) :
    ∃ node w', effect (addExpr e) w = (.ok node, w') ∧ w.Confined p w' ∧
      w'.graph.Has p node ∧ ∀ t, w.graph.Lent p t → w'.graph.Lent p t := by
  obtain ⟨confined, has, lent⟩ := parted.graph.addExpr e
  exact ⟨_, _, rfl, parted.confined confined, has, lent⟩

theorem setRoot_confined {node : Nat} (parted : w.Parted p) (mine : p.entries id)
    (has : w.graph.Has p node) : w.Confined p (effect (setRoot id node) w).2 := by
  have state : (effect (setRoot id node) w).2 =
    { w with entries := w.entries.modify id fun old => { old with root := node } } := rfl
  rw [state]
  refine ⟨⟨parted.graph, ?_⟩, .refl _, ?_, Nat.le_of_eq Array.size_modify.symm⟩
  · intro other entry found
    rw [Array.getElem?_modify] at found
    split at found
    · rename_i same
      subst same
      obtain ⟨old, -, rfl⟩ := Option.map_eq_some_iff.mp found
      exact ⟨has.2, iff_of_true has.1 mine⟩
    · exact parted.roots other entry found
  · intro other outside
    dsimp only
    rw [Array.getElem?_modify, if_neg]
    rintro rfl
    exact outside mine

/-- A new entry belongs to the part if its number and its root do. -/
theorem newEntry_confined {e : Entry α} (parted : w.Parted p) (mine : p.entries w.entries.size)
    (has : w.graph.Has p e.root) : w.Confined p (effect (newEntry e) w).2 := by
  have state : (effect (newEntry e) w).2 = { w with entries := w.entries.push e } := rfl
  rw [state]
  refine ⟨⟨parted.graph, ?_⟩, .refl _, ?_, by simp⟩
  · intro id entry found
    rw [Array.getElem?_push] at found
    split at found
    · rename_i new
      obtain rfl := Option.some.inj found
      exact ⟨has.2, iff_of_true has.1 (new ▸ mine)⟩
    · exact parted.roots id entry found
  · intro id outside
    dsimp only
    rw [Array.getElem?_push, if_neg]
    rintro rfl
    exact outside mine

theorem parse_confined [OfScientific α] (parted : w.Parted p) (mine : p.entries w.entries.size)
    (text : String) : w.Confined p (effect (parse text) w).2 := by
  unfold parse
  split
  · rename_i f _
    obtain ⟨root, w', added, confined, has, -⟩ := addExpr_confined parted f.expr
    have count : w'.entries = w.entries := congrArg (·.2.entries) added.symm
    rw [addFormula, effect_bind added]
    exact confined.trans (newEntry_confined confined.parted (count ▸ mine) has)
  · exact parted.unchanged

/-- A copy belongs to the part, wherever it was copied from. -/
theorem copy_confined (parted : w.Parted p) (mine : p.entries w.entries.size) (id : Nat) :
    w.Confined p (effect (copy id) w).2 := by
  unfold copy
  cases found : w.entries[id]? with
  | none =>
    rw [effect_bind_error (effect_entry_none found)]
    exact parted.unchanged
  | some entry =>
    rw [effect_bind (effect_entry found), effect_bind (effect_get w)]
    refine confined_found parted fun new result => ?_
    obtain ⟨confined, has⟩ := parted.graph.copyWithin result
    have inGraph := parted.confined confined
    exact inGraph.trans (newEntry_confined inGraph.parted mine has)

end Confined

/-! ### Operands -/

end Work

/-- Whether an operand is no token, and a tree only if that is in the part. -/
def Operand.Within (p : Part) (g : Graph α) : Operand Nat α Nat → Prop
  | .tree node => g.Has p node
  | .token _ => False
  | _ => True

theorem Operand.Within.mono {p : Part} {g g' : Graph α} {o : Operand Nat α Nat}
    (within : o.Within p g) (confined : g.Confined p g') : o.Within p g' := by
  cases o with
  | tree node => exact Graph.Has.mono within confined
  | token t => exact within
  | _ => exact trivial

theorem Operand.read_name [OfInteger α] (x : String) :
    (read (.name x) : Except Misuse (Use Nat α Nat)) =
      if x = "" then .error .emptyName else .ok (.new (.name x)) := by
  by_cases empty : x = "" <;> simp [read, checkName, empty, Except.map]

theorem Operand.read_within [OfInteger α] {p : Part} {g : Graph α} {o : Operand Nat α Nat}
    (within : o.Within p g) : match (o.read : Except Misuse (Operand.Use Nat α Nat)) with
      | .ok (.tree node) => g.Has p node
      | .ok (.token _) => False
      | .ok (.new t) => t.IsOperand
      | .error _ => True := by
  cases o with
  | tree node => exact within
  | token t => exact within
  | number v => exact Token.isOperand_literal v
  | integer n =>
    rw [read]
    cases (OfInteger.ofInteger? n : Option α) with
    | some v => exact Token.isOperand_literal v
    | none => exact trivial
  | name x =>
    rw [read_name]
    by_cases empty : x = ""
    · rw [if_pos empty]
      exact trivial
    · rw [if_neg empty]
      exact Token.isOperand_name x
  | boolean => exact trivial
  | unusable kind => exact trivial

namespace Work

variable {p : Part} {w : Workspace α} {id : Nat}

/-- The root of an entry and another node get a new node as their parent. -/
theorem hang_confined (parted : w.Parted p) (mine : p.entries id) {token operand : Nat}
    (lent : w.graph.Lent p token)
    (operator : ∀ t, w.graph.tokens[token]? = some t → t.isOperator = true)
    (has : w.graph.Has p operand) (slot : Slot) :
    w.Confined p (effect (hang id token slot operand) w).2 := by
  refine confined_root parted mine fun old hasOld => ?_
  refine place_confined parted lent ⟨?_, nofun, fun _ t known _ => operator t known⟩ ?_
  · cases slot with
    | left =>
      rintro pair ⟨⟩
      exact ⟨hasOld.1, has.1⟩
    | right =>
      rintro pair ⟨⟩
      exact ⟨has.1, hasOld.1⟩
  · exact fun node w' confined hasNode => setRoot_confined confined.parted mine hasNode

theorem introduce_confined (parted : w.Parted p) (mine : p.entries id) (op : Op) (slot : Slot)
    {operand : Nat} (has : w.graph.Has p operand) :
    w.Confined p (effect (introduce id op slot operand) w).2 := by
  refine confined_bind (newToken_confined parted _) fun token w' made first => ?_
  cases made
  have known : (w.graph.newToken (.operator .introduced op)).tokens[w.graph.tokens.size]? =
      some (.operator .introduced op) := Array.getElem?_push_size
  refine hang_confined first.parted mine ((w.graph.spare_new _).lent p) (fun t found => ?_)
    (has.mono first.graphs) slot
  cases known.symm.trans found
  rfl

theorem looks_operator (operation : Operation) : Looks (operator operation : Work α Op) := by
  cases operation with
  | operator op => exact looks_pure op
  | token t =>
    refine looks_bind (fun _ => rfl) fun w => looks_bind (looks_found _) fun tok => ?_
    cases tok <;> first | exact looks_pure _ | exact looks_throw _
  | other => exact looks_throw _

/-- A token is accepted as an operation if it is one of an operator. -/
theorem operator_token {t : Nat} {op : Op}
    (accepted : (effect (operator (.token t)) w).1 = .ok op) :
    ∃ o, w.graph.tokens[t]? = some (.operator o op) := by
  rw [operator, effect_bind (effect_get w)] at accepted
  cases known : w.graph.tokens[t]? with
  | none =>
    rw [known] at accepted
    cases accepted
  | some tok =>
    rw [known] at accepted
    cases tok with
    | operator o op' =>
      cases accepted
      exact ⟨o, rfl⟩
    | _ => cases accepted

theorem effect_newLeaf (w : Workspace α) (t : Token α) :
    effect (do place ⟨← newToken t, none⟩) w =
      (.ok w.graph.nodes.size, { w with graph := (Graph.Grown.leaf w.graph t).graph }) := by
  have made : effect (newToken t) w =
    (.ok w.graph.tokens.size, { w with graph := w.graph.newToken t }) := rfl
  have fits : Links.Fits (w.graph.newToken t).tokens.size w.graph.nodes.size
      ⟨w.graph.tokens.size, none⟩ := ⟨by simp [Graph.newToken], Graph.older_none⟩
  rw [effect_bind made]
  exact effect_place fits

/-- The node of an operand is in the part. The tokens that may be given are the same as before. -/
theorem operandNode_confined [OfInteger α] (parted : w.Parted p) {o : Operand Nat α Nat}
    (within : o.Within p w.graph) :
    w.Confined p (effect (operandNode o) w).2 ∧
      (∀ node, (effect (operandNode o) w).1 = .ok node →
        (effect (operandNode o) w).2.graph.Has p node) ∧
      ∀ t tok, w.graph.Lent p t → w.graph.tokens[t]? = some tok →
        (effect (operandNode o) w).2.graph.Lent p t ∧
        (effect (operandNode o) w).2.graph.tokens[t]? = some tok := by
  have read := Operand.read_within within
  unfold operandNode
  split
  · rename_i node offered
    rw [offered] at read
    refine ⟨parted.unchanged, ?_, fun t tok lent known => ⟨lent, known⟩⟩
    rintro _ ⟨⟩
    exact read
  · rename_i t offered
    rw [offered] at read
    exact read.elim
  · rename_i tok offered
    rw [offered] at read
    obtain ⟨confined, has, lent⟩ := parted.graph.leaf read
    rw [effect_newLeaf]
    refine ⟨parted.confined confined, ?_, fun t tok' before known => ⟨lent t before, ?_⟩⟩
    · rintro _ ⟨⟩
      exact has
    · obtain ⟨inside, rfl⟩ := Array.getElem?_eq_some_iff.mp known
      simp [Graph.Grown.leaf, Graph.add, Graph.place, Graph.newToken, Array.getElem?_push,
        Nat.ne_of_lt inside]
  · exact ⟨parted.unchanged, nofun, fun t tok lent known => ⟨lent, known⟩⟩

theorem addOperation_confined [OfInteger α] (parted : w.Parted p) (mine : p.entries id)
    {operation : Operation} (lent : ∀ t, operation = .token t → w.graph.Lent p t) (position : Int)
    {operands : List (Operand Nat α Nat)} (within : ∀ o ∈ operands, o.Within p w.graph) :
    w.Confined p (effect (addOperation id operation position operands) w).2 := by
  refine confined_bind ((looks_operator operation).confined parted) fun op w₁ accepted _ => ?_
  have same := looks_operator operation w
  rw [accepted] at same
  obtain rfl : w₁ = w := same
  split
  · rename_i slot _
    split
    · rename_i operand
      obtain ⟨confined, has, kept⟩ :=
        operandNode_confined parted (within operand List.mem_cons_self)
      refine confined_bind confined fun node w₂ made second => ?_
      rw [made] at has kept
      cases operation with
      | operator _ => exact introduce_confined second.parted mine op slot (has node rfl)
      | other => exact introduce_confined second.parted mine op slot (has node rfl)
      | token t =>
        obtain ⟨o, known⟩ := operator_token (congrArg Prod.fst accepted)
        obtain ⟨lent', known'⟩ := kept t _ (lent t rfl) known
        refine hang_confined second.parted mine lent' (fun tok found => ?_) (has node rfl) slot
        cases known'.symm.trans found
        rfl
    · exact parted.unchanged
  · exact parted.unchanged

/-! ### Folds -/

theorem looks_descend (node : Nat) (path : List Int) : Looks (descend node path : Work α Nat) := by
  induction path generalizing node with
  | nil => exact looks_pure node
  | cons i path ih =>
    refine looks_bind (fun _ => rfl) fun w => looks_bind (looks_found _) fun n => ?_
    split
    · exact ih _
    · exact ih _
    · exact looks_throw _
    · exact looks_throw _

/-- A path leads from a node of the part to one of its nodes. -/
theorem descend_has {node target : Nat} {path : List Int} (parted : w.Parted p)
    (has : w.graph.Has p node) (leads : (effect (descend node path) w).1 = .ok target) :
    w.graph.Has p target := by
  induction path generalizing node with
  | nil =>
    obtain rfl := Except.ok.inj leads
    exact has
  | cons i path ih =>
    rw [descend, effect_bind (effect_get w)] at leads
    cases found : w.graph.node? node with
    | none =>
      rw [found] at leads
      cases leads
    | some n =>
      rw [found] at leads
      obtain ⟨t, operands⟩ := n
      cases operands with
      | none => cases leads
      | some pair =>
        obtain ⟨left, right⟩ :=
          parted.graph.operands has ((Graph.operands?_of_node? found).trans rfl)
        rcases step : Slot.ofPathIndex? i with _ | _ | _
        · rw [step] at leads
          cases leads
        · rw [step] at leads
          exact ih left leads
        · rw [step] at leads
          exact ih right leads

variable [Arithmetic α]

theorem simplify_confined (env : Env α) (parted : w.Parted p) (mine : p.entries id) :
    w.Confined p (effect (simplify env id) w).2 := by
  refine confined_root parted mine fun node has => ?_
  exact confined_edit parted (Edit.simplify_confined env parted.graph has.1)

theorem foldAt_confined (env : Env α) (parted : w.Parted p) (mine : p.entries id)
    (path : List Int) : w.Confined p (effect (foldAt env id path) w).2 := by
  refine confined_root parted mine fun node has => ?_
  refine confined_bind ((looks_descend node path).confined parted) fun target w' leads _ => ?_
  have same := looks_descend node path w
  rw [leads] at same
  obtain rfl : w' = w := same
  have here := descend_has parted has (congrArg Prod.fst leads)
  exact confined_edit parted (Edit.foldNode_confined env parted.graph here.1)

/-! ### Solving -/

theorem moveOver_confined (env : Env α) {unknown other : Nat} (parted : w.Parted p)
    (mine : p.entries unknown) (mine' : p.entries other) (applied : Op) (place : Slot)
    {next operand : Nat} (hasNext : w.graph.Has p next)
    (hasOperand : w.graph.Has p operand) :
    w.Confined p (effect (moveOver env unknown other applied place next operand) w).2 := by
  refine confined_bind (introduce_confined parted mine' applied place hasOperand)
    fun _ w₁ _ added => ?_
  refine confined_root added.parted mine' fun root has => ?_
  have fold := Edit.foldNode_confined env added.parted.graph has.1
  refine confined_bind (confined_edit added.parted fold) fun _ w₂ _ folded => ?_
  have kept := (hasNext.mono added.graphs).mono folded.graphs
  exact setRoot_confined folded.parted mine kept

theorem isolateAlong_confined {σ : Type} {view : Work α σ} (looks : Looks view) (env : Env α)
    (x : String) {unknown other : Nat} (parted : w.Parted p) (mine : p.entries unknown)
    (mine' : p.entries other) (limit : Nat) (path : List Slot) (done : Nat) :
    w.Confined p (effect (isolateAlong view env x unknown other limit path done) w).2 := by
  have value : Looks (do return (← eval env other, []) : Work α (α × List (SolveStep σ))) :=
    looks_bind (looks_eval env other) fun _ => looks_pure _
  induction path generalizing w done with
  | nil =>
    rw [isolateAlong, effect_bind (effect_get w)]
    refine confined_root parted mine fun root has => confined_found parted fun here found => ?_
    split
    · exact value.confined parted
    · exact parted.unchanged
  | cons slot path ih =>
    rw [isolateAlong, effect_bind (effect_get w)]
    refine confined_root parted mine fun root has => confined_found parted fun here found => ?_
    dsimp only
    split
    · exact value.confined parted
    split
    · exact parted.unchanged
    have goOn {w : Workspace α} (parted : w.Parted p) {next operand : Nat}
        (hasNext : w.graph.Has p next) (hasOperand : w.graph.Has p operand)
        (op applied : Op) (place : Slot) (before : σ) : w.Confined p (effect (do
          moveOver env unknown other applied place next operand
          let after ← view
          let rest ← isolateAlong view env x unknown other limit path (done + 1)
          return (rest.1, ⟨op, applied, slot, before, after⟩ :: rest.2)) w).2 := by
      have moved := moveOver_confined env parted mine mine' applied place hasNext hasOperand
      refine confined_bind moved fun _ w₁ _ moved => ?_
      refine confined_bind (looks.confined moved.parted) fun after w₂ _ seen => ?_
      exact confined_bind (ih seen.parted _) fun _ w₃ _ rest => rest.parted.unchanged
    split
    · split <;> exact parted.unchanged
    · rename_i op l r _
      obtain ⟨left, right⟩ := parted.graph.operands has (Graph.operands?_of_node? found)
      split
      · exact parted.unchanged
      · rename_i applied place undone
        refine confined_bind (looks.confined parted) fun before w₁ _ seen => ?_
        have hasLeft := left.mono seen.graphs
        have hasRight := right.mono seen.graphs
        split
        · exact goOn seen.parted hasLeft hasRight op applied place before
        · exact goOn seen.parted hasRight hasLeft op applied place before
    · exact parted.unchanged

theorem solve_confined {σ : Type} {view : Work α σ} (looks : Looks view) (env : Env α)
    (x : String) {eq : EquationEntry} (parted : w.Parted p) (mine : p.entries eq.lhs)
    (mine' : p.entries eq.rhs) : w.Confined p (effect (solve view env x eq) w).2 := by
  unfold solve
  split
  · exact parted.unchanged
  refine confined_bind (simplify_confined env parted mine) fun _ w₁ _ first => ?_
  refine confined_bind (simplify_confined env first.parted mine') fun _ w₂ _ second => ?_
  refine confined_bind ((looks_sides eq).confined second.parted) fun trees w₃ _ seen => ?_
  obtain ⟨l, r⟩ := trees
  dsimp only
  split
  · exact isolateAlong_confined looks env x seen.parted mine mine' _ _ _
  · exact isolateAlong_confined looks env x seen.parted mine' mine _ _ _
  · exact (looks_bind (looks_eval env eq.rhs) fun _ => looks_pure _).confined seen.parted
  · exact (looks_bind (looks_eval env eq.lhs) fun _ => looks_pure _).confined seen.parted
  · exact seen.parted.unchanged

end Work

end Equate
