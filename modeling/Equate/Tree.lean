/-!
# Trees

Ordered trees with a payload at every node. A leaf differs from a node without children. The
traversals keep the nodes still to visit on a list, so that the depth of a tree does not matter;
`weight` measures what is left to do.
-/

namespace Equate

/-- A leaf, or a node with its children in order, perhaps none. -/
inductive Tree (β : Type) where
  | leaf (payload : β)
  | node (payload : β) (children : List (Tree β))

namespace Tree

variable {β : Type}

def payload : Tree β → β
  | leaf p => p
  | node p _ => p

def children : Tree β → List (Tree β)
  | leaf _ => []
  | node _ cs => cs

def isLeaf : Tree β → Bool
  | leaf _ => true
  | node .. => false

mutual

def weight : Tree β → Nat
  | leaf _ => 1
  | node _ cs => forestWeight cs + 1

def forestWeight : List (Tree β) → Nat
  | [] => 0
  | t :: ts => t.weight + forestWeight ts

end

theorem weight_eq (t : Tree β) : t.weight = forestWeight t.children + 1 := by
  cases t <;> simp [weight, forestWeight, children]

theorem weight_pos (t : Tree β) : 0 < t.weight := by
  rw [weight_eq]; omega

theorem forestWeight_append (ts us : List (Tree β)) :
    forestWeight (ts ++ us) = forestWeight ts + forestWeight us := by
  induction ts with
  | nil => simp [forestWeight]
  | cons t ts ih => simp [forestWeight, ih]; omega

theorem forestWeight_reverse (ts : List (Tree β)) : forestWeight ts.reverse = forestWeight ts := by
  induction ts with
  | nil => rfl
  | cons t ts ih => simp [forestWeight, forestWeight_append, ih]; omega

/-! ### Visiting all nodes -/

/-- The nodes of the pending trees, every node before its children. -/
def walkFrom : List (Tree β) → List (Tree β)
  | [] => []
  | t :: pending => t :: walkFrom (t.children ++ pending)
termination_by pending => forestWeight pending
decreasing_by
  rw [forestWeight_append, forestWeight, weight_eq]
  omega

def walk (t : Tree β) : List (Tree β) := walkFrom [t]

/-- How much a pending tree of a postorder walk still costs: a tree whose children are done is
only listed, any other is opened first. -/
def pendingWeight : List (Tree β × Bool) → Nat
  | [] => 0
  | (_, true) :: pending => pendingWeight pending + 1
  | (t, false) :: pending => pendingWeight pending + 2 * t.weight

theorem pendingWeight_open (ts : List (Tree β)) (pending : List (Tree β × Bool)) :
    pendingWeight (ts.map (·, false) ++ pending) = pendingWeight pending + 2 * forestWeight ts := by
  induction ts with
  | nil => simp [forestWeight]
  | cons t ts ih => simp [pendingWeight, forestWeight, ih]; omega

/-- The nodes of the pending trees, children first. A tree marked `true` has had its turn. -/
def walkPostorderFrom : List (Tree β × Bool) → List (Tree β)
  | [] => []
  | (t, done) :: pending =>
    if done || t.children.isEmpty then t :: walkPostorderFrom pending
    else walkPostorderFrom (t.children.map (·, false) ++ (t, true) :: pending)
termination_by pending => pendingWeight pending
decreasing_by
  · cases done
    · simp only [pendingWeight]; have := t.weight_pos; omega
    · simp only [pendingWeight]; omega
  · rename_i unfinished
    cases done
    · simp only [pendingWeight_open, pendingWeight]; rw [t.weight_eq]; omega
    · simp at unfinished

/-- All nodes, children before their parent. -/
def walkPostorder (t : Tree β) : List (Tree β) := walkPostorderFrom [(t, false)]

/-! ### Visiting nodes that lose their children -/

/-- The children of a node when the nodes at the places in `dropped` have lost theirs. -/
def remaining (dropped : List (List Nat)) (place : List Nat) (t : Tree β) : List (Tree β) :=
  if place ∈ dropped then [] else t.children

theorem forestWeight_remaining_lt (dropped : List (List Nat)) (place : List Nat) (t : Tree β) :
    forestWeight (t.remaining dropped place) < t.weight := by
  rw [remaining, weight_eq]
  split
  · exact Nat.succ_pos _
  · exact Nat.lt_succ_self _

/-- The nodes of the pending trees with their places, children first. Whoever gets a node drops its
children if its place is in `drops`, before the walk goes on. A place is the child indices that led
to a node at the start, so that no two nodes have the same. -/
def walkDroppingFrom (drops : List Nat → Bool) (dropped : List (List Nat)) :
    List ((List Nat × Tree β) × Bool) → List (List Nat × Tree β)
  | [] => []
  | ((place, t), done) :: pending =>
    if done || (t.remaining dropped place).isEmpty then
      (place, t) ::
        walkDroppingFrom drops (if drops place then place :: dropped else dropped) pending
    else
      walkDroppingFrom drops dropped
        ((t.remaining dropped place).zipIdx.map (fun (child, i) => ((place ++ [i], child), false))
          ++ ((place, t), true) :: pending)
termination_by pending => pendingWeight (pending.map fun ((_, t), done) => (t, done))
decreasing_by
  · cases done
    · simp only [List.map_cons, pendingWeight]; have := t.weight_pos; omega
    · simp only [List.map_cons, pendingWeight]; omega
  · rename_i unfinished
    cases done
    · have opened (ts : List (Tree β)) :
          ts.zipIdx.map (fun x => (x.1, false)) = ts.map (·, false) := by
        have marked := congrArg (List.map (·, false)) (List.zipIdx_map_fst 0 ts)
        rwa [List.map_map] at marked
      have lighter := t.forestWeight_remaining_lt dropped place
      simp only [List.map_append, List.map_cons, List.map_map, Function.comp_def, opened,
        pendingWeight_open, pendingWeight]
      omega
    · simp at unfinished

/-- All nodes with their places, children before their parent, for a consumer that drops the
children of nodes which it has got. -/
def walkDropping (drops : List Nat → Bool) (t : Tree β) : List (List Nat × Tree β) :=
  walkDroppingFrom drops [] [(([], t), false)]

/-! ### Searching -/

/-- The way to the first pending node whose payload satisfies `p`. Every pending tree comes with
the way to it, last step first. -/
def findPathFrom (p : β → Bool) : List (Tree β × List Nat) → Option (List Nat)
  | [] => none
  | (t, way) :: pending =>
    if p t.payload then some way.reverse
    else findPathFrom p (t.children.zipIdx.map (fun (child, i) => (child, i :: way)) ++ pending)
termination_by pending => forestWeight (pending.map (·.1))
decreasing_by
  simp only [List.map_append, List.map_cons, List.map_map, Function.comp_def,
    List.zipIdx_map_fst, forestWeight_append, forestWeight]
  rw [t.weight_eq]
  omega

/-- The child indices that lead to the first node in preorder whose payload satisfies `p`. -/
def findPath? (p : β → Bool) (t : Tree β) : Option (List Nat) := findPathFrom p [(t, [])]

/-- The parent of the first pending node whose payload satisfies `p`. Every pending tree comes
with its parent. -/
def findParentFrom (p : β → Bool) : List (Tree β × Option (Tree β)) → Option (Tree β)
  | [] => none
  | (t, parent) :: pending =>
    if p t.payload then parent
    else findParentFrom p (t.children.map (·, some t) ++ pending)
termination_by pending => forestWeight (pending.map (·.1))
decreasing_by
  simp only [List.map_append, List.map_cons, forestWeight_append, forestWeight]
  rw [t.weight_eq]
  simp [Function.comp_def]

/-- The parent of the first node in preorder whose payload satisfies `p`. The root has none. -/
def findParent? (p : β → Bool) (t : Tree β) : Option (Tree β) := findParentFrom p [(t, none)]

def contains (p : β → Bool) (t : Tree β) : Bool := t.walk.any fun node => p node.payload

/-! ### Measures -/

/-- The deepest level among `deepest` and those of the pending trees, which come with the level of
their root. The last child of a node comes first. -/
def depthFrom (deepest : Nat) : List (Tree β × Nat) → Nat
  | [] => deepest
  | (t, level) :: pending =>
    depthFrom (max deepest level) ((t.children.map (·, level + 1)).reverse ++ pending)
termination_by pending => forestWeight (pending.map (·.1))
decreasing_by
  simp only [List.map_append, List.map_cons, List.map_reverse, forestWeight_append,
    forestWeight_reverse, forestWeight]
  rw [t.weight_eq]
  simp [Function.comp_def]

/-- The number of levels; a leaf has one. -/
def depth (t : Tree β) : Nat := depthFrom 0 [(t, 1)]

def size (t : Tree β) : Nat := t.walk.length

/-! ### Copies and equality -/

/-- Changes the node that child indices lead to, if there is one. -/
def modifyAt (change : Tree β → Tree β) : (place : List Nat) → Tree β → Tree β
  | [], t => change t
  | _ :: _, leaf p => leaf p
  | i :: place, node p cs => node p (cs.modify i (modifyAt change place))

/-- The copy made so far, after the children of the pending nodes and all below them have been added
to it, from the last child of a node on. Every pending node comes with the place of its copy, which
has no children yet. -/
def copyFrom {γ : Type} (clone : β → γ) (made : Tree γ) : List (Tree β × List Nat) → Tree γ
  | [] => made
  | (leaf _, _) :: pending => copyFrom clone made pending
  | (node _ cs, place) :: pending =>
    let copies := cs.map fun child => leaf (clone child.payload)
    copyFrom clone (made.modifyAt (fun copied => node copied.payload copies) place)
      ((cs.zipIdx.map fun (child, i) => (child, place ++ [i])).reverse ++ pending)
termination_by pending => forestWeight (pending.map (·.1))
decreasing_by
  · simp [forestWeight, weight]
  · simp only [List.map_append, List.map_cons, List.map_reverse, List.map_map, Function.comp_def,
      List.zipIdx_map_fst, forestWeight_append, forestWeight_reverse, forestWeight, weight]
    omega

/-- A copy, node by node, with copied payloads. -/
def copyWith {γ : Type} (clone : β → γ) (t : Tree β) : Tree γ :=
  copyFrom clone (leaf (clone t.payload)) [(t, [])]

def copy (t : Tree β) : Tree β := t.copyWith id

/-- Whether the pairs of pending trees are equal. The last children of two nodes come first. -/
def equalFrom [BEq β] : List (Tree β × Tree β) → Bool
  | [] => true
  | (a, b) :: pending =>
    if a.payload != b.payload then false
    else if a.isLeaf != b.isLeaf then false
    else if a.children.length != b.children.length then false
    else equalFrom ((a.children.zip b.children).reverse ++ pending)
termination_by pending => forestWeight (pending.map (·.1))
decreasing_by
  rename_i sameLength
  simp only [bne_iff_ne, ne_eq, Decidable.not_not] at sameLength
  simp only [List.map_append, List.map_cons, List.map_reverse, forestWeight_append,
    forestWeight_reverse, forestWeight]
  rw [a.weight_eq, List.map_fst_zip (by omega)]
  omega

/-- Trees are equal when they have the same shape and equal payloads. -/
def beq [BEq β] (a b : Tree β) : Bool := equalFrom [(a, b)]

instance [BEq β] : BEq (Tree β) := ⟨beq⟩

/-! ### Display -/

mutual

def inspect (f : β → String) : Tree β → String
  | leaf p => "Tree(" ++ f p ++ ")"
  | node p cs => "Tree(" ++ f p ++ ", [" ++ ", ".intercalate (inspectForest f cs) ++ "])"

def inspectForest (f : β → String) : List (Tree β) → List String
  | [] => []
  | t :: ts => t.inspect f :: inspectForest f ts

end

end Tree

end Equate
