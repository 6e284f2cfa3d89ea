import Equate.Tally

/-!
# What a tally tells

`lookup_tally`: the number that stands beside an item is how often it occurs. `nodup_keys_tally`
and `mem_keys_tally`: the items of a tally are those of the list, each once.
-/

namespace Equate

variable {κ : Type} [DecidableEq κ]

theorem lookup_cons_if (y z : κ) (n : Nat) (rest : List (κ × Nat)) :
    List.lookup y ((z, n) :: rest) = if y = z then some n else List.lookup y rest := by
  by_cases same : y = z
  · rw [if_pos same, same, List.lookup_cons_self]
  · rw [if_neg same, List.lookup_cons, beq_false_of_ne same]

theorem lookup_countOne (x y : κ) (counts : List (κ × Nat)) :
    (countOne x counts).lookup y =
      if y = x then some ((counts.lookup x).getD 0 + 1) else counts.lookup y := by
  induction counts with
  | nil => exact lookup_cons_if y x 1 []
  | cons entry rest ih =>
    obtain ⟨z, n⟩ := entry
    by_cases here : z = x
    · subst here
      simp only [countOne, if_true, lookup_cons_if, Option.getD_some]
      split <;> rfl
    · simp only [countOne, if_neg here, lookup_cons_if, ih, if_neg (Ne.symm here)]
      by_cases same : y = z
      · simp [same, here]
      · simp [same]

theorem keys_countOne (x : κ) (counts : List (κ × Nat)) :
    (countOne x counts).map (·.1) =
      if x ∈ counts.map (·.1) then counts.map (·.1) else counts.map (·.1) ++ [x] := by
  induction counts with
  | nil => simp [countOne]
  | cons entry rest ih =>
    obtain ⟨z, n⟩ := entry
    by_cases here : z = x
    · simp [countOne, here]
    · simp only [countOne, if_neg here, List.map_cons, ih, List.mem_cons, Ne.symm here, false_or]
      split <;> rfl

/-! ### Counting on from a tally -/

theorem lookup_foldl_countOne (xs : List κ) (counts : List (κ × Nat)) (y : κ) :
    (xs.foldl (fun counts x => countOne x counts) counts).lookup y =
      if xs.count y = 0 then counts.lookup y
      else some ((counts.lookup y).getD 0 + xs.count y) := by
  induction xs generalizing counts with
  | nil => simp
  | cons x xs ih =>
    rw [List.foldl_cons, ih, lookup_countOne]
    by_cases same : y = x
    · subst same
      by_cases later : xs.count y = 0
      · simp [later]
      · simp [later]
        omega
    · simp [same, List.count_cons_of_ne (Ne.symm same)]

theorem lookup_tally (xs : List κ) (y : κ) :
    (tally xs).lookup y = if xs.count y = 0 then none else some (xs.count y) := by
  rw [tally, lookup_foldl_countOne]
  simp

theorem mem_keys_foldl_countOne (xs : List κ) (counts : List (κ × Nat)) (y : κ) :
    y ∈ (xs.foldl (fun counts x => countOne x counts) counts).map (·.1) ↔
      y ∈ counts.map (·.1) ∨ y ∈ xs := by
  induction xs generalizing counts with
  | nil => simp
  | cons x xs ih =>
    rw [List.foldl_cons, ih, keys_countOne]
    split
    · rename_i present
      constructor
      · rintro (old | new)
        · exact Or.inl old
        · exact Or.inr (List.mem_cons_of_mem x new)
      · rintro (old | new)
        · exact Or.inl old
        · rcases List.mem_cons.mp new with rfl | new
          · exact Or.inl present
          · exact Or.inr new
    · simp [or_assoc]

theorem nodup_keys_foldl_countOne (xs : List κ) (counts : List (κ × Nat))
    (distinct : (counts.map (·.1)).Nodup) :
    ((xs.foldl (fun counts x => countOne x counts) counts).map (·.1)).Nodup := by
  induction xs generalizing counts with
  | nil => exact distinct
  | cons x xs ih =>
    apply ih
    rw [keys_countOne]
    split
    · exact distinct
    · rename_i absent
      rw [List.nodup_append]
      refine ⟨distinct, by simp, ?_⟩
      rintro a present b member rfl
      rw [List.mem_singleton.mp member] at present
      exact absent present

theorem mem_keys_tally {xs : List κ} {y : κ} : y ∈ (tally xs).map (·.1) ↔ y ∈ xs := by
  rw [tally, mem_keys_foldl_countOne]
  simp

theorem nodup_keys_tally (xs : List κ) : ((tally xs).map (·.1)).Nodup :=
  nodup_keys_foldl_countOne xs [] List.nodup_nil

end Equate
