import Equate.Tree

/-!
# Walks through a tree

The nodes of a tree are listed by recursion, with their places: `preorder` and `postorder`. What is
listed stands where it is said to stand (`mem_preorder`). A walk keeps the trees still to visit on a
list, and comes to the same nodes in the same order (`walk_eq_preorder`, `walkPostorder_eq`), also
if it goes children first and nodes that it has come to may lose their children (`walkDropping_eq`).
-/

namespace Equate.Tree

variable {β : Type}

/-! ### Nodes and their places -/

def at? : List Nat → Tree β → Option (Tree β)
  | [], t => some t
  | i :: place, t => t.children[i]?.bind (at? place)

mutual

/-- The nodes of a tree at a place with their places, every node before its children. -/
def preorderAt (place : List Nat) : Tree β → List (List Nat × Tree β)
  | leaf p => [(place, leaf p)]
  | node p cs => (place, node p cs) :: preorderBelow place 0 cs

def preorderBelow (place : List Nat) (i : Nat) : List (Tree β) → List (List Nat × Tree β)
  | [] => []
  | t :: ts => t.preorderAt (place ++ [i]) ++ preorderBelow place (i + 1) ts

end

mutual

/-- The nodes of a tree at a place with their places, children before their parent. -/
def postorderAt (place : List Nat) : Tree β → List (List Nat × Tree β)
  | leaf p => [(place, leaf p)]
  | node p cs => postorderBelow place 0 cs ++ [(place, node p cs)]

def postorderBelow (place : List Nat) (i : Nat) : List (Tree β) → List (List Nat × Tree β)
  | [] => []
  | t :: ts => t.postorderAt (place ++ [i]) ++ postorderBelow place (i + 1) ts

end

def preorder (t : Tree β) : List (List Nat × Tree β) := t.preorderAt []

def postorder (t : Tree β) : List (List Nat × Tree β) := t.postorderAt []

theorem at?_append (place rest : List Nat) (t : Tree β) :
    t.at? (place ++ rest) = (t.at? place).bind (·.at? rest) := by
  induction place generalizing t with
  | nil => rfl
  | cons i place ih =>
    rw [List.cons_append, at?, at?]
    cases t.children[i]? with
    | none => rfl
    | some child => exact ih child

mutual

theorem mem_preorderAt {place place' : List Nat} {n : Tree β} : (t : Tree β) →
    ((place', n) ∈ t.preorderAt place ↔ ∃ rest, place' = place ++ rest ∧ t.at? rest = some n)
  | leaf p => by
    rw [preorderAt, List.mem_singleton]
    constructor
    · rintro ⟨⟩
      exact ⟨[], (List.append_nil place).symm, rfl⟩
    · rintro ⟨rest, rfl, found⟩
      cases rest with
      | nil => simpa [at?] using found.symm
      | cons i rest => simp [at?, children] at found
  | node p cs => by
    rw [preorderAt, List.mem_cons, mem_preorderBelow cs]
    constructor
    · rintro (same | ⟨j, rest, rfl, found⟩)
      · cases same
        exact ⟨[], (List.append_nil place).symm, rfl⟩
      · exact ⟨j :: rest, by simp, found⟩
    · rintro ⟨rest, rfl, found⟩
      cases rest with
      | nil => exact Or.inl (by simpa [at?] using found.symm)
      | cons j rest => exact Or.inr ⟨j, rest, by simp, found⟩

theorem mem_preorderBelow {place place' : List Nat} {i : Nat} {n : Tree β} : (ts : List (Tree β)) →
    ((place', n) ∈ preorderBelow place i ts ↔
      ∃ j rest, place' = place ++ (i + j) :: rest ∧ ts[j]?.bind (at? rest) = some n)
  | [] => by simp [preorderBelow]
  | t :: ts => by
    rw [preorderBelow, List.mem_append, mem_preorderAt t, mem_preorderBelow ts]
    constructor
    · rintro (⟨rest, rfl, found⟩ | ⟨j, rest, rfl, found⟩)
      · exact ⟨0, rest, by simp, found⟩
      · exact ⟨j + 1, rest, by simp; omega, found⟩
    · rintro ⟨j, rest, rfl, found⟩
      cases j with
      | zero => exact Or.inl ⟨rest, by simp, found⟩
      | succ j => exact Or.inr ⟨j, rest, by simp; omega, found⟩

end

theorem mem_preorder {place : List Nat} {n t : Tree β} :
    (place, n) ∈ t.preorder ↔ t.at? place = some n := by
  rw [preorder, mem_preorderAt]
  simp

mutual

theorem perm_postorderAt (place : List Nat) : (t : Tree β) →
    (t.postorderAt place).Perm (t.preorderAt place)
  | leaf _ => .refl _
  | node _ cs => (List.perm_append_singleton _ _).trans ((perm_postorderBelow place 0 cs).cons _)

theorem perm_postorderBelow (place : List Nat) (i : Nat) : (ts : List (Tree β)) →
    (postorderBelow place i ts).Perm (preorderBelow place i ts)
  | [] => .refl _
  | t :: ts => (perm_postorderAt _ t).append (perm_postorderBelow place (i + 1) ts)

end

/-! ### Walks -/

theorem walkFrom_append (ts us : List (Tree β)) :
    walkFrom (ts ++ us) = walkFrom ts ++ walkFrom us := by
  fun_induction walkFrom ts with
  | case1 => rfl
  | case2 t pending ih =>
    rw [List.cons_append, walkFrom, ← List.append_assoc, ih, List.cons_append]

theorem walkFrom_eq (ts : List (Tree β)) : walkFrom ts = ts.flatMap walk := by
  induction ts with
  | nil => rw [walkFrom, List.flatMap_nil]
  | cons t ts ih =>
    rw [List.flatMap_cons, ← ih, walk, ← walkFrom_append, List.singleton_append]

theorem walk_eq (t : Tree β) : t.walk = t :: t.children.flatMap walk := by
  rw [walk, walkFrom, List.append_nil, walkFrom_eq]

mutual

theorem map_preorderAt (place : List Nat) : (t : Tree β) →
    (t.preorderAt place).map (·.2) = t.walk
  | leaf p => by
    rw [walk_eq]
    rfl
  | node p cs => by
    rw [preorderAt, List.map_cons, map_preorderBelow, walk_eq]
    rfl

theorem map_preorderBelow (place : List Nat) (i : Nat) : (ts : List (Tree β)) →
    (preorderBelow place i ts).map (·.2) = ts.flatMap walk
  | [] => rfl
  | t :: ts => by
    rw [preorderBelow, List.map_append, map_preorderAt, map_preorderBelow, List.flatMap_cons]

end

theorem walk_eq_preorder (t : Tree β) : t.walk = t.preorder.map (·.2) := (map_preorderAt [] t).symm

theorem walkPostorderFrom_done (t : Tree β) (pending : List (Tree β × Bool)) :
    walkPostorderFrom ((t, true) :: pending) = t :: walkPostorderFrom pending := by
  rw [walkPostorderFrom]
  rfl

mutual

theorem walkPostorderFrom_tree (place : List Nat) (pending : List (Tree β × Bool)) :
    (t : Tree β) → walkPostorderFrom ((t, false) :: pending) =
      (t.postorderAt place).map (·.2) ++ walkPostorderFrom pending
  | leaf p | node p [] => by
    rw [walkPostorderFrom]
    rfl
  | node p (c :: cs) => by
    rw [walkPostorderFrom]
    simp only [children, List.isEmpty_cons, Bool.or_false, Bool.false_eq_true, if_false]
    rw [walkPostorderFrom_forest place 0, walkPostorderFrom_done, postorderAt]
    simp

theorem walkPostorderFrom_forest (place : List Nat) (i : Nat) (pending : List (Tree β × Bool)) :
    (ts : List (Tree β)) → walkPostorderFrom (ts.map (·, false) ++ pending) =
      (postorderBelow place i ts).map (·.2) ++ walkPostorderFrom pending
  | [] => rfl
  | t :: ts => by
    rw [List.map_cons, List.cons_append, walkPostorderFrom_tree (place ++ [i]),
      walkPostorderFrom_forest place (i + 1), postorderBelow, List.map_append, List.append_assoc]

end

theorem map_postorderAt (place : List Nat) (t : Tree β) :
    (t.postorderAt place).map (·.2) = t.walkPostorder := by
  rw [walkPostorder, walkPostorderFrom_tree place, walkPostorderFrom, List.append_nil]

theorem map_postorderBelow (place : List Nat) (i : Nat) (ts : List (Tree β)) :
    (postorderBelow place i ts).map (·.2) = ts.flatMap walkPostorder := by
  induction ts generalizing i with
  | nil => rfl
  | cons t ts ih =>
    rw [postorderBelow, List.map_append, map_postorderAt, ih, List.flatMap_cons]

theorem walkPostorder_eq (t : Tree β) : t.walkPostorder = t.postorder.map (·.2) :=
  (map_postorderAt [] t).symm

theorem walkPostorder_leaf (p : β) : (leaf p).walkPostorder = [leaf p] := by
  rw [walkPostorder_eq]
  rfl

theorem walkPostorder_node (p : β) (cs : List (Tree β)) :
    (node p cs).walkPostorder = cs.flatMap walkPostorder ++ [node p cs] := by
  rw [walkPostorder_eq, postorder, postorderAt, List.map_append, map_postorderBelow]
  rfl

/-! ### Walks that lose children -/

section Dropping

variable (drops : List Nat → Bool)

theorem walkDroppingFrom_listed {place : List Nat} {t : Tree β} {done : Bool}
    {dropped : List (List Nat)} (last : (done || (t.remaining dropped place).isEmpty) = true)
    (pending : List ((List Nat × Tree β) × Bool)) :
    ∃ more, (∀ d ∈ more, place <+: d) ∧
      walkDroppingFrom drops dropped (((place, t), done) :: pending) =
        (place, t) :: walkDroppingFrom drops (more ++ dropped) pending := by
  rw [walkDroppingFrom, if_pos last]
  by_cases drop : drops place = true
  · exact ⟨[place], by simp, by rw [if_pos drop, List.singleton_append]⟩
  · exact ⟨[], List.forall_mem_nil _, by rw [if_neg drop, List.nil_append]⟩

mutual

/-- If nothing at or below its place has lost children, a tree is walked as a whole, and only nodes
at or below its place lose their children meanwhile. -/
theorem walkDroppingFrom_tree {place : List Nat} {dropped : List (List Nat)}
    (whole : ∀ d ∈ dropped, ¬ place <+: d) (pending : List ((List Nat × Tree β) × Bool)) :
    (t : Tree β) → ∃ more, (∀ d ∈ more, place <+: d) ∧
      walkDroppingFrom drops dropped (((place, t), false) :: pending) =
        t.postorderAt place ++ walkDroppingFrom drops (more ++ dropped) pending
  | leaf p | node p [] => by
    refine walkDroppingFrom_listed drops ?_ pending
    unfold remaining
    split <;> rfl
  | node p (c :: cs) => by
    have kept : (node p (c :: cs)).remaining dropped place = c :: cs :=
      if_neg fun lost => whole place lost (List.prefix_refl place)
    have below : ∀ d ∈ dropped, ∀ j ≥ 0, ¬ place ++ [j] <+: d := fun d lost j _ deeper =>
      whole d lost ((List.prefix_append place [j]).trans deeper)
    -- the children come first; then the node is met again and only listed
    obtain ⟨more, inside, walked⟩ := walkDroppingFrom_forest below
      (((place, node p (c :: cs)), true) :: pending) (c :: cs)
    have met : (true || ((node p (c :: cs)).remaining (more ++ dropped) place).isEmpty) = true :=
      Bool.true_or _
    obtain ⟨last, here, listed⟩ := walkDroppingFrom_listed drops met pending
    refine ⟨last ++ more, ?_, ?_⟩
    · intro d lost
      rcases List.mem_append.mp lost with lost | lost
      · exact here d lost
      · obtain ⟨j, -, deeper⟩ := inside d lost
        exact (List.prefix_append place [j]).trans deeper
    · rw [walkDroppingFrom, kept, if_neg (by simp), walked, listed, postorderAt]
      simp

theorem walkDroppingFrom_forest {place : List Nat} {i : Nat} {dropped : List (List Nat)}
    (whole : ∀ d ∈ dropped, ∀ j ≥ i, ¬ place ++ [j] <+: d)
    (pending : List ((List Nat × Tree β) × Bool)) :
    (ts : List (Tree β)) → ∃ more, (∀ d ∈ more, ∃ j ≥ i, place ++ [j] <+: d) ∧
      walkDroppingFrom drops dropped
          ((ts.zipIdx i).map (fun (child, j) => ((place ++ [j], child), false)) ++ pending) =
        postorderBelow place i ts ++ walkDroppingFrom drops (more ++ dropped) pending
  | [] => ⟨[], List.forall_mem_nil _, rfl⟩
  | t :: ts => by
    have here : ∀ d ∈ dropped, ¬ place ++ [i] <+: d := fun d lost => whole d lost i (Nat.le_refl i)
    obtain ⟨first, within, walked⟩ := walkDroppingFrom_tree here
      ((ts.zipIdx (i + 1)).map (fun (child, j) => ((place ++ [j], child), false)) ++ pending) t
    have later : ∀ d ∈ first ++ dropped, ∀ j ≥ i + 1, ¬ place ++ [j] <+: d := by
      intro d lost j after deeper
      rcases List.mem_append.mp lost with lost | lost
      · -- the places of two children have the same length, so that only one of them leads to `d`
        have same := List.prefix_of_prefix_length_le deeper (within d lost) (by simp)
        have equal : j = i := by simpa using same
        omega
      · exact whole d lost j (by omega) deeper
    obtain ⟨rest, after, listed⟩ := walkDroppingFrom_forest later pending ts
    refine ⟨rest ++ first, ?_, ?_⟩
    · intro d lost
      rcases List.mem_append.mp lost with lost | lost
      · obtain ⟨j, above, deeper⟩ := after d lost
        exact ⟨j, by omega, deeper⟩
      · exact ⟨i, Nat.le_refl i, within d lost⟩
    · rw [List.zipIdx_cons, List.map_cons, List.cons_append, walked, listed, postorderBelow]
      simp

end

theorem walkDropping_eq (t : Tree β) : t.walkDropping drops = t.postorder := by
  have whole : ∀ d ∈ ([] : List (List Nat)), ¬ [] <+: d := List.forall_mem_nil _
  obtain ⟨more, -, walked⟩ := walkDroppingFrom_tree drops whole [] t
  rw [walkDropping, walked, walkDroppingFrom, List.append_nil]
  rfl

end Dropping

end Equate.Tree
