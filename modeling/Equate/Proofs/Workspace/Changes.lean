import Equate.Proofs.Workspace.Confinement

/-!
# Sequences of changes

What can be done in a workspace: expressions are read and copied, and steps change them. A step may
give a token that was made before, or one that is in a tree. In the workspaces that are `made` so
from nothing all entries have trees, and if no token was given that was in a tree already
(`TokensOnce`), they hold expressions. Steps on the entries of a part are confined to it unless they
are given a token from outside: `performAll_confined`.
-/

namespace Equate

variable {α : Type}

def Part.whole (once : Prop) : Part := ⟨fun _ => True, fun _ => True, once⟩

namespace Work

/-! ### Operands -/

inductive Supply (α : Type) where
  | number (v : α)
  | integer (n : Int)
  | name (x : String)
  | text (s : String)
  | entry (id : Nat)

def Supply.entry? : Supply α → Option Nat
  | entry id => some id
  | _ => none

section Supplies

variable [OfScientific α] {p : Part} {w : Workspace α}

def Supply.offer : Supply α → Work α (Operand Nat α Nat)
  | number v => return .number v
  | integer n => return .integer n
  | name x => return .name x
  | text s => do
    match Formula.parse s with
    | .ok f => return .tree (← addExpr f.expr)
    | .error e => throw (.expression e)
  | entry id => return .tree (← root id)

theorem offer_confined (parted : w.Parted p) {s : Supply α}
    (mine : ∀ id, s.entry? = some id → p.entries id) :
    ∃ r w', effect s.offer w = (r, w') ∧ w.Confined p w' ∧
      (∀ o, r = .ok o → o.Within p w'.graph) ∧
      ∀ t, w.graph.Lent p t → w'.graph.Lent p t := by
  have value (o : Operand Nat α Nat) (within : o.Within p w.graph) :
      ∃ r w', effect (return o : Work α _) w = (r, w') ∧ w.Confined p w' ∧
        (∀ o, r = .ok o → o.Within p w'.graph) ∧ ∀ t, w.graph.Lent p t → w'.graph.Lent p t := by
    refine ⟨_, _, rfl, parted.unchanged, ?_, fun _ lent => lent⟩
    rintro o ⟨⟩
    exact within
  cases s with
  | number v => exact value (.number v) trivial
  | integer n => exact value (.integer n) trivial
  | name x => exact value (.name x) trivial
  | text s =>
    rw [Supply.offer]
    cases (Formula.parse s : Except ExprError (Formula α)) with
    | error e => exact ⟨_, _, rfl, parted.unchanged, nofun, fun _ lent => lent⟩
    | ok f =>
      obtain ⟨node, w', added, confined, has, lent⟩ := addExpr_confined parted f.expr
      refine ⟨_, _, effect_bind added, confined, ?_, lent⟩
      rintro o ⟨⟩
      exact has
  | entry id =>
    rw [Supply.offer]
    cases found : w.entries[id]? with
    | none =>
      exact ⟨_, _, effect_bind_error (effect_bind_error (effect_entry_none found)),
        parted.unchanged, nofun, fun _ lent => lent⟩
    | some entry =>
      refine ⟨_, _, effect_bind (effect_root found), parted.unchanged, ?_, fun _ lent => lent⟩
      rintro o ⟨⟩
      exact parted.has_root (mine id rfl) found

theorem offers_confined (parted : w.Parted p) {supplies : List (Supply α)}
    (mine : ∀ s ∈ supplies, ∀ id, s.entry? = some id → p.entries id) :
    ∃ r w', effect (supplies.mapM Supply.offer) w = (r, w') ∧ w.Confined p w' ∧
      (∀ os, r = .ok os → ∀ o ∈ os, o.Within p w'.graph) ∧
      ∀ t, w.graph.Lent p t → w'.graph.Lent p t := by
  induction supplies generalizing w with
  | nil =>
    refine ⟨_, _, rfl, parted.unchanged, ?_, fun _ lent => lent⟩
    rintro os ⟨⟩ o ⟨⟩
  | cons s supplies ih =>
    rw [List.mapM_cons]
    obtain ⟨r, w₁, offered, first, within, lent⟩ :=
      offer_confined parted (mine s List.mem_cons_self)
    cases r with
    | error f => exact ⟨_, _, effect_bind_error offered, first, nofun, lent⟩
    | ok o =>
      rw [effect_bind offered]
      obtain ⟨r, w₂, offered, rest, within', lent'⟩ :=
        ih first.parted fun s member => mine s (List.mem_cons_of_mem _ member)
      have both (t : Nat) (before : w.graph.Lent p t) : w₂.graph.Lent p t := lent' t (lent t before)
      cases r with
      | error f => exact ⟨_, _, effect_bind_error offered, first.trans rest, nofun, both⟩
      | ok os =>
        refine ⟨_, _, effect_bind offered, first.trans rest, ?_, both⟩
        rintro _ ⟨⟩ o' member
        rcases List.mem_cons.mp member with rfl | member
        · exact (within _ rfl).mono rest.graphs
        · exact within' os rfl o' member

end Supplies

/-! ### Steps and other changes -/

/-- What is done to an entry or to an equation. Tokens are made on the way, to be given. -/
inductive Step (α : Type) where
  | token (t : Token α)
  | simplify (env : Env α) (id : Nat)
  | fold (env : Env α) (id : Nat) (path : List Int)
  | add (id : Nat) (operation : Operation) (position : Int) (operands : List (Supply α))
  | solve (traced : Bool) (env : Env α) (x : String) (eq : EquationEntry)

def Step.entries : Step α → List Nat
  | token _ => []
  | simplify _ id => [id]
  | fold _ id _ => [id]
  | add id _ _ operands => id :: operands.filterMap Supply.entry?
  | solve _ _ _ eq => [eq.lhs, eq.rhs]

def Step.given? : Step α → Option Nat
  | add _ (.token t) _ _ => some t
  | _ => none

/-- What is done in a workspace. An equation is formed from the entries of its sides. -/
inductive Change (α : Type) where
  | parse (text : String)
  | copy (id : Nat)
  | step (s : Step α)

def Change.given? : Change α → Option Nat
  | step s => s.given?
  | _ => none

def view (traced : Bool) (eq : EquationEntry) : Work α (Option (Tree (Token α) × Tree (Token α))) :=
  if traced then do return some (← sides eq) else return none

theorem looks_view (traced : Bool) (eq : EquationEntry) : Looks (view traced eq : Work α _) := by
  cases traced with
  | true => exact looks_bind (looks_sides eq) fun _ => looks_pure _
  | false => exact looks_pure _

theorem parted_empty (once : Prop) : (Workspace.empty : Workspace α).Parted (.whole once) where
  graph := {
    leaves := by
      intro id t found
      cases found
    apart := fun _ _ _ _ => ⟨Iff.rfl, Iff.rfl⟩
    tokens := fun _ _ _ _ _ => Iff.rfl
    new := fun _ _ => trivial
    own := fun _ => Graph.ownTokens_empty
    whole := by
      intro rule id n found
      cases found }
  roots := by
    intro id entry found
    cases found

section Run

variable [Arithmetic α] [OfScientific α] [OfInteger α]

def Step.run : Step α → Work α Unit
  | token t => do let _ ← newToken t
  | simplify env id => Work.simplify env id
  | fold env id path => do let _ ← foldAt env id path
  | add id operation position operands => do
    addOperation id operation position (← operands.mapM Supply.offer)
  | solve traced env x eq => do let _ ← Work.solve (view traced eq) env x eq

def Change.run : Change α → Work α Unit
  | parse text => do let _ ← Work.parse text
  | copy id => do let _ ← Work.copy id
  | step s => s.run

/-- The workspace that changes make out of nothing, whether they fail or not. -/
def made (changes : List (Change α)) : Workspace α :=
  changes.foldl (fun w c => (effect c.run w).2) .empty

/-- Whether each change in turn, from a workspace on, is given a token only if no node has it. -/
def TokensOnce (w : Workspace α) : List (Change α) → Prop
  | [] => True
  | c :: changes =>
    (∀ t, c.given? = some t → w.graph.Spare t) ∧ TokensOnce (effect c.run w).2 changes

/-- Where operations are given as operators, no token is given. -/
theorem tokensOnce_of_operators (w : Workspace α) {changes : List (Change α)}
    (operators : ∀ c ∈ changes, c.given? = none) : TokensOnce w changes := by
  induction changes generalizing w with
  | nil => trivial
  | cons c changes ih =>
    obtain ⟨first, rest⟩ := List.forall_mem_cons.mp operators
    refine ⟨fun t given => ?_, ih _ rest⟩
    rw [first] at given
    cases given

/-! ### Steps on a part -/

variable {p : Part} {w : Workspace α}

/-- A step changes nothing but the part of the entries that it is about. -/
theorem Step.confined (parted : w.Parted p) {s : Step α} (mine : ∀ id ∈ s.entries, p.entries id)
    (lent : ∀ t, s.given? = some t → w.graph.Lent p t) : w.Confined p (effect s.run w).2 := by
  cases s with
  | token t => exact newToken_confined parted t
  | simplify env id => exact simplify_confined env parted (mine id List.mem_cons_self)
  | fold env id path =>
    refine confined_bind (foldAt_confined env parted (mine id List.mem_cons_self) path) ?_
    exact fun _ w' _ folded => folded.parted.unchanged
  | add id operation position supplies =>
    have offered : ∀ s ∈ supplies, ∀ id, s.entry? = some id → p.entries id :=
      fun s member id same => mine id (List.mem_cons_of_mem _
        (List.mem_filterMap.mpr ⟨s, member, same⟩))
    obtain ⟨r, w', offers, confined, within, still⟩ := offers_confined parted offered
    cases r with
    | error f =>
      rw [run, effect_bind_error offers]
      exact confined
    | ok operands =>
      rw [run, effect_bind offers]
      refine confined.trans (addOperation_confined confined.parted (mine id List.mem_cons_self) ?_
        position (within operands rfl))
      rintro t rfl
      exact still t (lent t rfl)
  | solve traced env x eq =>
    have lhs := mine eq.lhs List.mem_cons_self
    have rhs := mine eq.rhs (List.mem_cons_of_mem _ List.mem_cons_self)
    refine confined_bind (solve_confined (looks_view traced eq) env x parted lhs rhs) ?_
    exact fun _ w' _ solved => solved.parted.unchanged

theorem Change.confined {once : Prop} (parted : w.Parted (.whole once)) (c : Change α)
    (spare : once → ∀ t, c.given? = some t → w.graph.Spare t) :
    w.Confined (.whole once) (effect c.run w).2 := by
  cases c with
  | parse text =>
    exact confined_bind (parse_confined parted trivial text) fun _ _ _ read => read.parted.unchanged
  | copy id =>
    exact confined_bind (copy_confined parted trivial id) fun _ _ _ made => made.parted.unchanged
  | step s =>
    exact Step.confined parted (fun _ _ => trivial) fun t given =>
      ⟨fun _ _ => trivial, fun rule => spare rule t given⟩

theorem made_parted {once : Prop} {changes : List (Change α)}
    (spare : once → TokensOnce .empty changes) : (made changes).Parted (.whole once) := by
  suffices from_any : ∀ w : Workspace α, w.Parted (.whole once) → (once → TokensOnce w changes) →
      (changes.foldl (fun w c => (effect c.run w).2) w).Parted (.whole once) from
    from_any .empty (parted_empty once) spare
  clear spare
  induction changes with
  | nil => exact fun _ parted _ => parted
  | cons c changes ih =>
    exact fun w parted spare => ih _ (Change.confined parted c fun rule => (spare rule).1).parted
      fun rule => (spare rule).2

end Run

end Work

end Equate
