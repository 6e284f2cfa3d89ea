import Equate.Proofs.Tree.Traversal

/-!
# Trees by recursion

Searches, measures, copies and comparisons of trees keep a list of what is still to do, too, so that
the depth of a tree does not matter. They come to what recursion over the tree comes to, see
`operations_recursive`. The search for a parent goes in step with the search for a path
(`findParentFrom_eq`), so both tell of the same node.
-/

namespace Equate.Tree

variable {β : Type}

/-! ### Searches -/

section Search

variable {p : β → Bool}

def firstPlace? (p : β → Bool) (nodes : List (List Nat × Tree β)) : Option (List Nat) :=
  (nodes.find? fun node => p node.2.payload).map (·.1)

@[simp] theorem firstPlace?_nil : firstPlace? p ([] : List (List Nat × Tree β)) = none := rfl

theorem firstPlace?_cons (place : List Nat) (t : Tree β) (later : List (List Nat × Tree β)) :
    firstPlace? p ((place, t) :: later) =
      if p t.payload then some place else firstPlace? p later := by
  by_cases here : p t.payload = true <;> simp [firstPlace?, here]

theorem firstPlace?_append (nodes later : List (List Nat × Tree β)) :
    firstPlace? p (nodes ++ later) = (firstPlace? p nodes).or (firstPlace? p later) := by
  unfold firstPlace?
  rw [List.find?_append]
  cases nodes.find? fun node => p node.2.payload <;> rfl

mutual

theorem findPathFrom_tree (pending : List (Tree β × List Nat)) (way : List Nat) :
    (t : Tree β) → findPathFrom p ((t, way) :: pending) =
      (firstPlace? p (t.preorderAt way.reverse)).or (findPathFrom p pending)
  | leaf q => by
    rw [findPathFrom, preorderAt, firstPlace?_cons]
    split <;> rfl
  | node q cs => by
    rw [findPathFrom, preorderAt, firstPlace?_cons, children, findPathFrom_forest pending way 0]
    split <;> rfl

theorem findPathFrom_forest (pending : List (Tree β × List Nat)) (way : List Nat) (i : Nat) :
    (ts : List (Tree β)) →
    findPathFrom p ((ts.zipIdx i).map (fun (child, j) => (child, j :: way)) ++ pending) =
      (firstPlace? p (preorderBelow way.reverse i ts)).or (findPathFrom p pending)
  | [] => rfl
  | t :: ts => by
    rw [List.zipIdx_cons, List.map_cons, List.cons_append, findPathFrom_tree _ (i :: way),
      findPathFrom_forest pending way (i + 1), preorderBelow, firstPlace?_append, Option.or_assoc,
      List.reverse_cons]

end

theorem findPath?_eq (t : Tree β) : t.findPath? p = firstPlace? p t.preorder := by
  rw [findPath?, findPathFrom_tree, findPathFrom, Option.or_none]
  rfl

theorem findPath?_eq_none_iff (t : Tree β) :
    t.findPath? p = none ↔ ∀ n ∈ t.walk, p n.payload = false := by
  rw [findPath?_eq, firstPlace?, Option.map_eq_none_iff, List.find?_eq_none, walk_eq_preorder,
    List.forall_mem_map]
  simp only [Bool.not_eq_true]

theorem at?_of_findPath? {t : Tree β} {path : List Nat} (found : t.findPath? p = some path) :
    ∃ n, t.at? path = some n ∧ p n.payload = true := by
  rw [findPath?_eq] at found
  obtain ⟨⟨place, n⟩, first, rfl⟩ := Option.map_eq_some_iff.mp found
  have satisfied := List.find?_some first
  exact ⟨n, mem_preorder.mp (List.mem_of_find?_eq_some first), satisfied⟩

theorem contains_eq (t : Tree β) : t.contains p = (t.findPath? p).isSome := by
  rw [contains, findPath?_eq, firstPlace?, Option.isSome_map, List.isSome_find?,
    ← map_preorderAt [], List.any_map]
  rfl

/-- The node that a path leads to without its last step. The empty path has no last step. -/
def parentAt? (t : Tree β) (path : List Nat) : Option (Tree β) :=
  if path = [] then none else t.at? path.dropLast

theorem parentAt?_append (t : Tree β) (place : List Nat) (i : Nat) :
    t.parentAt? (place ++ [i]) = t.at? place := by
  simp [parentAt?]

theorem at?_child {t n child : Tree β} {place : List Nat} {i : Nat} (found : t.at? place = some n)
    (next : n.children[i]? = some child) : t.at? (place ++ [i]) = some child := by
  rw [at?_append, found, Option.bind_some, at?, next]
  rfl

/-- Both searches go through the nodes in step: where one keeps the way to a node, the other keeps
the parent that this way tells. -/
theorem findParentFrom_eq {t : Tree β} {pending : List (Tree β × List Nat)}
    (reached : ∀ e ∈ pending, t.at? e.2.reverse = some e.1) :
    findParentFrom p (pending.map fun e => (e.1, t.parentAt? e.2.reverse)) =
      (findPathFrom p pending).bind t.parentAt? := by
  fun_induction findPathFrom p pending with
  | case1 => rw [List.map_nil, findParentFrom, Option.bind_none]
  | case2 n way pending here =>
    rw [List.map_cons, findParentFrom, if_pos here, Option.bind_some]
  | case3 n way pending other ih =>
    have this : t.at? way.reverse = some n := reached (n, way) List.mem_cons_self
    have opened : n.children.map (fun child => (child, some n)) =
        (n.children.zipIdx.map fun (child, i) => (child, i :: way)).map
          fun e => (e.1, t.parentAt? e.2.reverse) := by
      have parents := congrArg (List.map fun child => (child, some n))
        (List.zipIdx_map_fst 0 n.children)
      simp only [List.map_map, Function.comp_def, List.reverse_cons, parentAt?_append, this]
      rw [List.map_map] at parents
      exact parents.symm
    rw [List.map_cons, findParentFrom, if_neg other, opened, ← List.map_append]
    refine ih fun e member => ?_
    rcases List.mem_append.mp member with below | later
    · obtain ⟨⟨child, i⟩, listed, rfl⟩ := List.mem_map.mp below
      rw [List.reverse_cons]
      exact at?_child this (List.mem_zipIdx_iff_getElem?.mp listed)
    · exact reached e (List.mem_cons_of_mem _ later)

theorem findParent?_eq (t : Tree β) : t.findParent? p = (t.findPath? p).bind t.parentAt? := by
  have reached : ∀ e ∈ [(t, ([] : List Nat))], t.at? e.2.reverse = some e.1 := by
    rintro e (⟨⟩ | ⟨_, ⟨⟩⟩)
    rfl
  exact findParentFrom_eq reached

theorem findParent?_eq_none_iff (t : Tree β) :
    t.findParent? p = none ↔ t.findPath? p = none ∨ t.findPath? p = some [] := by
  rw [findParent?_eq]
  cases found : t.findPath? p with
  | none => simp
  | some path =>
    obtain ⟨n, reached, -⟩ := at?_of_findPath? found
    rcases List.eq_nil_or_concat path with rfl | ⟨above, i, rfl⟩
    · simp [parentAt?]
    · rw [List.concat_eq_append] at reached ⊢
      rw [at?_append] at reached
      obtain ⟨parent, way, -⟩ := Option.bind_eq_some_iff.mp reached
      simp [parentAt?_append, way]

end Search

/-! ### Measures -/

mutual

def height : Tree β → Nat
  | leaf _ => 1
  | node _ cs => forestHeight cs + 1

def forestHeight : List (Tree β) → Nat
  | [] => 0
  | t :: ts => max t.height (forestHeight ts)

end

mutual

theorem depthFrom_tree (pending : List (Tree β × Nat)) (deepest level : Nat) : (t : Tree β) →
    depthFrom deepest ((t, level + 1) :: pending) =
      depthFrom (max deepest (level + t.height)) pending
  | leaf p => by
    rw [depthFrom]
    rfl
  | node p cs => by
    rw [depthFrom, children, depthFrom_forest pending deepest (level + 1) cs, height,
      Nat.add_right_comm, Nat.add_assoc]

theorem depthFrom_forest (pending : List (Tree β × Nat)) (deepest level : Nat) :
    (ts : List (Tree β)) →
    depthFrom (max deepest level) ((ts.map (·, level + 1)).reverse ++ pending) =
      depthFrom (max deepest (level + forestHeight ts)) pending
  | [] => rfl
  | t :: ts => by
    rw [List.map_cons, List.reverse_cons, List.append_assoc, List.singleton_append,
      depthFrom_forest, depthFrom_tree, forestHeight]
    congr 1
    omega

end

theorem depth_eq (t : Tree β) : t.depth = t.height := by
  rw [depth, depthFrom_tree, depthFrom]
  omega

mutual

theorem length_preorderAt (place : List Nat) : (t : Tree β) →
    (t.preorderAt place).length = t.weight
  | leaf p => rfl
  | node p cs => by
    rw [preorderAt, List.length_cons, length_preorderBelow, weight]

theorem length_preorderBelow (place : List Nat) (i : Nat) : (ts : List (Tree β)) →
    (preorderBelow place i ts).length = forestWeight ts
  | [] => rfl
  | t :: ts => by
    rw [preorderBelow, List.length_append, length_preorderAt, length_preorderBelow, forestWeight]

end

theorem size_eq (t : Tree β) : t.size = t.weight := by
  rw [size, ← map_preorderAt [], List.length_map, length_preorderAt]

/-! ### Copies -/

mutual

def map {γ : Type} (f : β → γ) : Tree β → Tree γ
  | leaf p => leaf (f p)
  | node p cs => node (f p) (mapForest f cs)

def mapForest {γ : Type} (f : β → γ) : List (Tree β) → List (Tree γ)
  | [] => []
  | t :: ts => t.map f :: mapForest f ts

end

theorem modifyAt_append (change : Tree β → Tree β) (place rest : List Nat) (t : Tree β) :
    t.modifyAt change (place ++ rest) = t.modifyAt (·.modifyAt change rest) place := by
  induction place generalizing t with
  | nil => rfl
  | cons i place ih =>
    cases t with
    | leaf p => rfl
    | node p cs =>
      rw [List.cons_append, modifyAt, modifyAt]
      congr 2
      exact funext ih

theorem modifyAt_modifyAt (change later : Tree β → Tree β) (place : List Nat) (t : Tree β) :
    (t.modifyAt change place).modifyAt later place = t.modifyAt (later ∘ change) place := by
  induction place generalizing t with
  | nil => rfl
  | cons i place ih =>
    cases t with
    | leaf p => rfl
    | node p cs =>
      rw [modifyAt, modifyAt, modifyAt, List.modify_modify_eq]
      congr 2
      exact funext ih

section Copies

variable {γ : Type} (clone : β → γ)

/-- A change of the child that comes after `before`, in a node put in at a place. -/
theorem modifyAt_child (made : Tree γ) (place : List Nat) (p : γ) (before : List (Tree γ))
    (old new : Tree γ) (later : List (Tree γ)) :
    (made.modifyAt (fun _ => node p (before ++ old :: later)) place).modifyAt (fun _ => new)
        (place ++ [before.length]) =
      made.modifyAt (fun _ => node p (before ++ new :: later)) place := by
  rw [modifyAt_append, modifyAt_modifyAt]
  congr 1
  funext _
  simp [modifyAt, List.modify_eq_take_cons_drop]

mutual

/-- Where the root of a tree has been copied, the whole tree comes to stand. -/
theorem copyFrom_tree (pending : List (Tree β × List Nat)) (made : Tree γ) (place : List Nat) :
    (t : Tree β) →
    copyFrom clone (made.modifyAt (fun _ => leaf (clone t.payload)) place) ((t, place) :: pending) =
      copyFrom clone (made.modifyAt (fun _ => t.map clone) place) pending
  | leaf p => by
    rw [copyFrom]
    rfl
  | node p cs => by
    rw [copyFrom, modifyAt_modifyAt]
    exact copyFrom_forest pending made place (clone p) [] cs

theorem copyFrom_forest (pending : List (Tree β × List Nat)) (made : Tree γ) (place : List Nat)
    (p : γ) (before : List (Tree γ)) : (ts : List (Tree β)) →
    copyFrom clone
        (made.modifyAt (fun _ => node p (before ++ ts.map fun child => leaf (clone child.payload)))
          place)
        (((ts.zipIdx before.length).map fun (child, i) => (child, place ++ [i])).reverse ++
          pending) =
      copyFrom clone (made.modifyAt (fun _ => node p (before ++ mapForest clone ts)) place) pending
  | [] => rfl
  | t :: ts => by
    -- the later children are done when the first one comes, and a leaf still stands in its place
    have later := copyFrom_forest ((t, place ++ [before.length]) :: pending) made place p
      (before ++ [leaf (clone t.payload)]) ts
    rw [List.append_assoc, List.append_assoc, List.singleton_append, List.singleton_append,
      List.length_append, List.length_singleton] at later
    have put (new : Tree γ) :=
      modifyAt_child made place p before (leaf (clone t.payload)) new (mapForest clone ts)
    rw [List.map_cons, List.zipIdx_cons, List.map_cons, List.reverse_cons, List.append_assoc,
      List.singleton_append, later, mapForest, ← put (leaf (clone t.payload)), copyFrom_tree, put]

end

theorem copyWith_eq (t : Tree β) : t.copyWith clone = t.map clone := by
  have copied := copyFrom_tree clone [] (leaf (clone t.payload)) [] t
  rwa [modifyAt, modifyAt, copyFrom] at copied

end Copies

mutual

theorem map_id : (t : Tree β) → t.map id = t
  | leaf p => rfl
  | node p cs => by
    rw [map, mapForest_id, id]

theorem mapForest_id : (ts : List (Tree β)) → mapForest id ts = ts
  | [] => rfl
  | t :: ts => by
    rw [mapForest, map_id, mapForest_id]

end

theorem copy_eq (t : Tree β) : t.copy = t := by
  rw [copy, copyWith_eq, map_id]

/-! ### Equality -/

section Equality

variable [BEq β]

mutual

def agrees : Tree β → Tree β → Bool
  | leaf p, leaf q => p == q
  | node p cs, node q ds => p == q && forestAgrees cs ds
  | _, _ => false

def forestAgrees : List (Tree β) → List (Tree β) → Bool
  | [], [] => true
  | t :: ts, u :: us => t.agrees u && forestAgrees ts us
  | _, _ => false

end

theorem forestAgrees_of_length_ne {ts us : List (Tree β)} (other : ts.length ≠ us.length) :
    forestAgrees ts us = false := by
  induction ts generalizing us with
  | nil =>
    cases us with
    | nil => exact absurd rfl other
    | cons u us => rfl
  | cons t ts ih =>
    cases us with
    | nil => rfl
    | cons u us =>
      rw [forestAgrees, ih (fun same => other (congrArg (· + 1) same)), Bool.and_false]

mutual

theorem equalFrom_tree (pending : List (Tree β × Tree β)) : (t u : Tree β) →
    equalFrom ((t, u) :: pending) = (t.agrees u && equalFrom pending)
  | leaf p, leaf q => by
    rw [equalFrom]
    cases same : p == q <;> simp [payload, isLeaf, children, agrees, same, bne]
  | leaf p, node q ds => by
    rw [equalFrom]
    cases same : p == q <;> simp [payload, isLeaf, agrees, same, bne]
  | node p cs, leaf q => by
    rw [equalFrom]
    cases same : p == q <;> simp [payload, isLeaf, agrees, same, bne]
  | node p cs, node q ds => by
    rw [equalFrom]
    by_cases length : cs.length = ds.length
    · simp only [payload, isLeaf, children, equalFrom_forest pending cs ds length, agrees]
      cases same : p == q <;> simp [bne, length, same]
    · simp [agrees, forestAgrees_of_length_ne length, children, length]

theorem equalFrom_forest (pending : List (Tree β × Tree β)) : (ts us : List (Tree β)) →
    ts.length = us.length →
    equalFrom ((ts.zip us).reverse ++ pending) = (forestAgrees ts us && equalFrom pending)
  | [], [], _ => rfl
  | t :: ts, u :: us, same => by
    rw [List.zip_cons_cons, List.reverse_cons, List.append_assoc, List.singleton_append,
      equalFrom_forest _ ts us (Nat.succ.inj same), equalFrom_tree, forestAgrees,
      Bool.and_left_comm, Bool.and_assoc]

end

theorem beq_eq (t u : Tree β) : (t == u) = t.agrees u := by
  have compared := equalFrom_tree [] t u
  rwa [equalFrom, Bool.and_true] at compared

end Equality

/-! ### All operations -/

/-- The operations of trees in terms of recursion over them. -/
structure Recursive [BEq β] (t : Tree β) : Prop where
  /-- The nodes are listed at the places that lead to them. -/
  places : ∀ place n, (place, n) ∈ t.preorder ↔ t.at? place = some n
  postorder : t.postorder.Perm t.preorder
  walk : t.walk = t.preorder.map (·.2)
  walkPostorder : t.walkPostorder = t.postorder.map (·.2)
  /-- The same nodes come in the same order if some of them, or all, lose their children. -/
  walkDropping : ∀ drops, t.walkDropping drops = t.postorder
  findPath : ∀ p, t.findPath? p = firstPlace? p t.preorder
  absent : ∀ p, t.findPath? p = none ↔ ∀ n ∈ t.walk, p n.payload = false
  findParent : ∀ p, t.findParent? p = (t.findPath? p).bind t.parentAt?
  parentless : ∀ p, t.findParent? p = none ↔ t.findPath? p = none ∨ t.findPath? p = some []
  contains : ∀ p, t.contains p = true ↔ t.findPath? p ≠ none
  depth : t.depth = t.height
  size : t.size = t.weight
  copyWith : ∀ {γ : Type} (clone : β → γ), t.copyWith clone = t.map clone
  copy : t.copy = t
  equal : ∀ u, (t == u) = t.agrees u

theorem operations_recursive [BEq β] (t : Tree β) : t.Recursive where
  places _ _ := mem_preorder
  postorder := perm_postorderAt [] t
  walk := t.walk_eq_preorder
  walkPostorder := t.walkPostorder_eq
  walkDropping drops := t.walkDropping_eq drops
  findPath _ := t.findPath?_eq
  absent _ := t.findPath?_eq_none_iff
  findParent _ := t.findParent?_eq
  parentless _ := t.findParent?_eq_none_iff
  contains p := by
    rw [contains_eq, Option.isSome_iff_ne_none]
  depth := t.depth_eq
  size := t.size_eq
  copyWith clone := t.copyWith_eq clone
  copy := t.copy_eq
  equal := t.beq_eq

end Equate.Tree
