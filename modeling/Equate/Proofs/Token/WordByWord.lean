import Equate.Proofs.Token.Characters
import Mathlib.Data.List.TakeWhile

/-!
# Reading word by word

A text can be read one word after the other, when each word is looked for from the end of the one
before on. What is found there is the word itself and not a text equal to it, since only blanks
stand before it. So the tokens and the columns of faults are those that `scan` gives at once
(`scanWords_eq`).
-/

namespace Equate

open Text

theorem class_eq_blank_iff {c : Char} : CharClass.of c = .blank ↔ isBlank c = true := by
  unfold CharClass.of
  split
  · simp_all
  · rename_i visible
    split
    · simp [visible]
    · split <;> simp [visible]

/-! ### Words -/

def words (cs : List Char) : List (List Char) := (cs.splitOnP isBlank).filter (!·.isEmpty)

theorem words_blank {c : Char} (blank : isBlank c = true) (cs : List Char) :
    words (c :: cs) = words cs := by
  unfold words
  rw [List.splitOnP_cons_eq_if_modifyHead, if_pos blank]
  simp

theorem words_append {w cs : List Char} (nonempty : w ≠ [])
    (visible : ∀ c ∈ w, isBlank c = false) (stop : ∀ c ∈ cs.head?, isBlank c = true) :
    words (w ++ cs) = w :: words cs := by
  cases cs with
  | nil =>
    unfold words
    rw [List.append_nil, List.splitOnP_eq_singleton visible]
    simp [nonempty]
  | cons c cs =>
    have blank := stop c rfl
    rw [words_blank blank, words, List.splitOnP_append_cons_of_forall_mem visible c blank]
    simp [words, nonempty]

/-- A text that begins with no blank begins with a word, which ends before a blank. -/
theorem exists_word {c : Char} (first : isBlank c = false) (cs : List Char) :
    ∃ w later, c :: cs = w ++ later ∧ w ≠ [] ∧ (∀ d ∈ w, isBlank d = false) ∧
      ∀ d ∈ later.head?, isBlank d = true := by
  refine ⟨(c :: cs).takeWhile (!isBlank ·), (c :: cs).dropWhile (!isBlank ·),
    List.takeWhile_append_dropWhile.symm, by simp [first], ?_, ?_⟩
  · intro d member
    simpa using List.mem_takeWhile_imp member
  · intro d head
    have stop := List.head?_dropWhile_not (!isBlank ·) (c :: cs)
    rw [Option.mem_def.mp head] at stop
    simpa using stop

theorem apart_of_blank {w later : List Char} (visible : ∀ d ∈ w, isBlank d = false)
    (stop : ∀ d ∈ later.head?, isBlank d = true) : Apart w later := by
  rintro a last b first ⟨same, -⟩
  rw [class_eq_blank_iff.mpr (stop b first), class_eq_blank_iff] at same
  exact Bool.false_ne_true ((visible a (List.mem_of_getLast? last)).symm.trans same)

/-! ### The place of a word -/

/-- Where a word stands first in a text, from a column on. -/
def indexFrom? (column : Nat) (word cs : List Char) : Option Nat :=
  (List.range' column (cs.length - column)).find? fun k => word.isPrefixOf (cs.drop k)

/-- A word is not found among the blanks before it. -/
theorem indexFrom?_eq {done gap w later : List Char} (blank : ∀ c ∈ gap, isBlank c = true)
    (nonempty : w ≠ []) (visible : ∀ c ∈ w, isBlank c = false) :
    indexFrom? done.length w (done ++ (gap ++ (w ++ later))) = some (done.length + gap.length) := by
  obtain ⟨c, w, rfl⟩ := List.exists_cons_of_ne_nil nonempty
  unfold indexFrom?
  rw [List.find?_range'_eq_some]
  refine ⟨?_, ?_, ?_⟩
  · rw [List.isPrefixOf_iff_prefix, List.drop_length_add_append, List.drop_left]
    exact List.prefix_append _ _
  · simp [List.mem_range'_1]
  · intro k from_ before
    obtain ⟨j, rfl⟩ := Nat.exists_eq_add_of_le from_
    have inside : j < gap.length := by omega
    rw [List.drop_length_add_append, List.drop_append_of_le_length (by omega),
      List.drop_eq_getElem_cons inside, Bool.not_eq_true', ← Bool.not_eq_true,
      List.isPrefixOf_iff_prefix, List.cons_append, List.cons_prefix_cons]
    rintro ⟨same, -⟩
    have seen := visible c List.mem_cons_self
    rw [same, blank _ (List.getElem_mem inside)] at seen
    cases seen

/-! ### Reading -/

variable {α : Type} [OfScientific α]

theorem scanRuns_append_eq (column : Nat) (rs rs' : List Run) :
    scanRuns (α := α) column (rs ++ rs') = do
      let ts ← scanRuns column rs
      let us ← scanRuns (column + (rs.flatMap Run.chars).length) rs'
      return ts ++ us := by
  induction rs generalizing column with
  | nil =>
    cases later : scanRuns (α := α) column rs' <;> simp [scanRuns, later] <;> rfl
  | cons r rs ih =>
    rw [List.cons_append, scanRuns, scanRuns, ih, List.flatMap_cons, List.length_append,
      ← Nat.add_assoc]
    cases r.token? (α := α) column with
    | error fault => rfl
    | ok token =>
      cases scanRuns (α := α) (column + r.chars.length) rs with
      | error fault => rfl
      | ok ts =>
        cases scanRuns (α := α)
          (column + r.chars.length + (rs.flatMap Run.chars).length) rs' with
        | error fault => rfl
        | ok us => exact congrArg Except.ok (List.append_assoc _ _ _).symm

theorem scanRuns_blank {c : Char} (blank : isBlank c = true) (cs : List Char) (column : Nat) :
    scanRuns (α := α) column (runs (c :: cs)) = scanRuns (column + 1) (runs cs) := by
  have kind := class_eq_blank_iff.mpr blank
  rcases runs_cons_cases c cs with alone | ⟨r, rs, split, same, -, joined⟩
  · rw [alone, kind, scanRuns]
    exact id_map (scanRuns (α := α) (column + 1) (runs cs))
  · have skipped : r.kind = .blank := same.symm.trans kind
    rw [joined, split, scanRuns, scanRuns]
    simp [Run.token?, skipped, Run.chars, Nat.add_comm, Nat.add_left_comm]

variable (α) in
/-- Reads one word after the other, each at the place where it is found from the end of the word
before on. -/
def scanWords (cs : List Char) (column : Nat) :
    List (List Char) → Option (Except ExprError (List (Token α)))
  | [] => some (.ok [])
  | word :: later =>
    match indexFrom? column word cs with
    | none => none
    | some start =>
      match scanRuns (α := α) start (runs word) with
      | .error fault => some (.error fault)
      | .ok ts => (scanWords cs (start + word.length) later).map (·.map (ts ++ ·))

/-- The words of what is left of a text are found there, after its blanks. -/
theorem scanWords_of_gap (done gap cs : List Char) (blank : ∀ c ∈ gap, isBlank c = true) :
    scanWords α (done ++ (gap ++ cs)) done.length (words cs) =
      some (scanRuns (done.length + gap.length) (runs cs)) := by
  induction size : cs.length using Nat.strong_induction_on generalizing done gap cs with
  | _ n ih =>
  subst size
  cases cs with
  | nil => rfl
  | cons c cs =>
  -- a blank widens the gap; a word is found behind it, and the search goes on from its end
  by_cases here : isBlank c = true
  · have wider : ∀ d ∈ gap ++ [c], isBlank d = true := by
      intro d member
      rcases List.mem_append.mp member with before | last
      · exact blank d before
      · rwa [List.mem_singleton.mp last]
    have later := ih cs.length (Nat.lt_succ_self _) done (gap ++ [c]) cs wider rfl
    rw [words_blank here, scanRuns_blank here]
    simpa [Nat.add_assoc] using later
  · obtain ⟨w, tail, split, nonempty, visible, stop⟩ := exists_word (by simpa using here) cs
    have shorter : tail.length < (c :: cs).length := by
      have positive := List.length_pos_iff.mpr nonempty
      rw [split, List.length_append]
      omega
    have later := ih tail.length shorter (done ++ gap ++ w) [] tail (List.forall_mem_nil _) rfl
    simp only [List.nil_append, List.append_assoc, List.length_append, List.length_nil,
      Nat.add_zero, ← Nat.add_assoc] at later
    rw [split, words_append nonempty visible stop, scanWords, indexFrom?_eq blank nonempty visible]
    dsimp only
    rw [runs_append (apart_of_blank visible stop), scanRuns_append_eq, chars_runs]
    cases scanRuns (α := α) (done.length + gap.length) (runs w) with
    | error fault => rfl
    | ok ts =>
      dsimp only
      rw [later]
      cases scanRuns (α := α) (done.length + gap.length + w.length) (runs tail) <;> rfl

theorem scanWords_eq (text : String) :
    scanWords α text.toList 0 (words text.toList) = some (scan text) :=
  scanWords_of_gap [] [] text.toList (List.forall_mem_nil _)

end Equate
