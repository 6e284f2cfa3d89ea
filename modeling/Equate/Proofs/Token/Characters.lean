import Equate.Proofs.Token.Spelling

/-!
# Characters of scanned texts

The runs of a text make it up (`chars_runs`), and in a text that is split into tokens every run
spells something. So such a text has no characters but blanks, letters, digits, points, operators
and parentheses, all of them in ASCII (`legible_of_scan`), and no number in it begins with a point
(`not_scan_point`).
-/

namespace Equate

open Text

/-! ### Runs and their characters -/

theorem chars_runs (cs : List Char) : (runs cs).flatMap Run.chars = cs := by
  induction cs with
  | nil => rfl
  | cons c cs ih =>
    rcases runs_cons_cases c cs with alone | ⟨r, rs, split, -, -, joined⟩
    · rw [alone, List.flatMap_cons, ih]
      rfl
    · rw [split] at ih
      rw [joined]
      exact congrArg (c :: ·) ih

theorem single_of_mem_runs {cs : List Char} {r : Run} (member : r ∈ runs cs)
    (single : r.kind.grows = false) : r.rest = [] := by
  induction cs generalizing r with
  | nil => cases member
  | cons c cs ih =>
    rcases runs_cons_cases c cs with alone | ⟨r', rs, split, -, grows, joined⟩
    · rw [alone] at member
      rcases List.mem_cons.mp member with rfl | later
      · rfl
      · exact ih later single
    · rw [split] at ih
      rw [joined] at member
      rcases List.mem_cons.mp member with rfl | later
      · exact absurd (grows.symm.trans single) Bool.noConfusion
      · exact ih (List.mem_cons_of_mem _ later) single

/-! ### Scanned texts -/

section Scanned

variable {α : Type} [OfScientific α] {ts : List (Token α)}

theorem token?_of_scanRuns {rs : List Run} {column : Nat} (scanned : scanRuns column rs = .ok ts)
    {r : Run} (member : r ∈ rs) :
    ∃ (column : Nat) (token : Option (Token α)), r.token? column = .ok token := by
  induction rs generalizing column ts with
  | nil => cases member
  | cons r' rs ih =>
    obtain ⟨token, tokens, spelled, later, -⟩ := scanRuns_cons_eq_ok.mp scanned
    rcases List.mem_cons.mp member with rfl | after
    · exact ⟨column, token, spelled⟩
    · exact ih later after

theorem first_of_token? {r : Run} {column : Nat} {token : Option (Token α)}
    (spelled : r.token? column = .ok token) (other : r.kind = .other) :
    r.first = '(' ∨ r.first = ')' ∨ ∃ op : Op, r.first = op.symbol := by
  obtain ⟨kind, c, cs⟩ := r
  subst other
  simp only [Run.token?, beq_iff_eq] at spelled
  split at spelled
  · exact Or.inl ‹_›
  · split at spelled
    · exact Or.inr (Or.inl ‹_›)
    · split at spelled
      · rename_i op found
        have same := List.find?_some found
        exact Or.inr (Or.inr ⟨op, (beq_iff_eq.mp same).symm⟩)
      · cases spelled

theorem legible_of_class {c : Char} (known : CharClass.of c ≠ .other) :
    isBlank c = true ∨ (c.toNat < 0x80 ∧ c ≠ '_') := by
  unfold CharClass.of at known
  split at known
  · exact Or.inl ‹_›
  · right
    split at known
    · rename_i letter
      have range := isAsciiLetter_iff.mp letter
      refine ⟨by omega, ?_⟩
      rintro rfl
      cases letter
    · split at known
      · rename_i number
        rw [Bool.or_eq_true, beq_iff_eq] at number
        rcases number with digit | rfl
        · have range := isAsciiDigit_iff.mp digit
          refine ⟨by omega, ?_⟩
          rintro rfl
          cases digit
        · decide
      · exact absurd rfl known

/-- A text that is split into tokens consists of blanks and characters of ASCII. -/
theorem legible_of_scan {text : String} (scanned : scan text = .ok ts) :
    ∀ c ∈ text.toList, isBlank c = true ∨ (c.toNat < 0x80 ∧ c ≠ '_') := by
  intro c member
  by_cases other : CharClass.of c = .other
  · rw [← chars_runs text.toList] at member
    obtain ⟨r, run, inside⟩ := List.mem_flatMap.mp member
    obtain ⟨column, token, spelled⟩ := token?_of_scanRuns scanned run
    have kind := (kind_of_mem_runs run c inside).symm.trans other
    have alone := single_of_mem_runs run (by rw [kind]; rfl)
    rw [Run.chars, alone, List.mem_singleton] at inside
    subst inside
    right
    rcases first_of_token? spelled kind with first | first | ⟨op, first⟩
    · rw [first]; decide
    · rw [first]; decide
    · rw [first]
      cases op <;> decide
  · exact legible_of_class other

/-- A point is not scanned unless it goes on from digits. -/
theorem not_scan_point {before after : List Char} {column : Nat}
    (stop : ∀ c ∈ before.getLast?, CharClass.of c ≠ .digit)
    (scanned : scanRuns column (runs (before ++ '.' :: after)) = .ok ts) : False := by
  have apart : Apart before ('.' :: after) := by
    rintro a last b ⟨⟩ ⟨same, -⟩
    exact stop a last same
  obtain ⟨rest, rs, first⟩ := runs_head '.' after
  rw [runs_append apart, first] at scanned
  have member : ⟨CharClass.of '.', '.', rest⟩ ∈
      runs before ++ ⟨CharClass.of '.', '.', rest⟩ :: rs := by simp
  obtain ⟨column, token, spelled⟩ := token?_of_scanRuns scanned member
  cases spelled

end Scanned

end Equate
