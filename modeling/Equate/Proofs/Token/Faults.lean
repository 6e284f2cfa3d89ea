import Equate.Proofs.Token.WordByWord

/-!
# Where a text cannot be read

The scanner stops at a character that begins no token, or at a number with more than one point.
`scan_fault`: the column that it tells is the first place where one of the two stands at the start
of a run, the text up to there can be read, and a text without such a place is read to its end. The
columns are also those that come of looking for one word after the other (`scanWords_eq`).
-/

namespace Equate

open Text

/-! ### Runs within a text -/

theorem apart_of_alone {c : Char} {cs : List Char}
    (alone : runs (c :: cs) = ⟨CharClass.of c, c, []⟩ :: runs cs) : Apart [c] cs := by
  rintro a ⟨⟩ b first ⟨same, grows⟩
  cases cs with
  | nil => cases first
  | cons d ds =>
    obtain rfl := Option.some.inj first
    obtain ⟨rest, rs, head⟩ := runs_head d ds
    have joined : runs (c :: d :: ds) = ⟨CharClass.of d, c, d :: rest⟩ :: rs := by
      rw [runs_cons, head]
      exact if_pos ⟨same, grows⟩
    rw [joined, head] at alone
    exact List.cons_ne_self _ _ (List.cons.inj alone).2.symm

theorem Apart.cons {c : Char} {cs ds : List Char} (nonempty : cs ≠ []) (apart : Apart cs ds) :
    Apart (c :: cs) ds := by
  obtain ⟨d, rest, rfl⟩ := List.exists_cons_of_ne_nil nonempty
  intro a last
  exact apart a (by rwa [List.getLast?_cons_cons] at last)

/-- Where the runs of a text are parted, so is the text. -/
theorem split_of_runs {cs : List Char} {rs rs' : List Run} (split : runs cs = rs ++ rs') :
    ∃ before after, cs = before ++ after ∧ Apart before after ∧ runs before = rs ∧
      runs after = rs' := by
  induction cs generalizing rs with
  | nil =>
    obtain ⟨rfl, rfl⟩ := List.append_eq_nil_iff.mp split.symm
    exact ⟨[], [], rfl, nofun, rfl, rfl⟩
  | cons c cs ih =>
    cases rs with
    | nil => exact ⟨[], c :: cs, rfl, nofun, rfl, split⟩
    | cons r rs =>
      -- what is left to find is the text before the seam, up to its first character
      suffices inside : ∃ before after, cs = before ++ after ∧ Apart (c :: before) after ∧
          runs after = rs' by
        obtain ⟨before, after, rfl, apart, same⟩ := inside
        refine ⟨c :: before, after, rfl, apart, ?_, same⟩
        rw [← List.cons_append, runs_append apart, same] at split
        exact List.append_cancel_right split
      rcases runs_cons_cases c cs with alone | ⟨r', rs'', first, -, -, joined⟩
      · have later := (List.cons.inj (alone.symm.trans split)).2
        obtain ⟨before, after, rfl, apart, -, same⟩ := ih later
        refine ⟨before, after, rfl, ?_, same⟩
        by_cases empty : before = []
        · subst empty
          exact apart_of_alone alone
        · exact apart.cons empty
      · have later := (List.cons.inj (joined.symm.trans split)).2
        have inner : runs cs = (r' :: rs) ++ rs' := first.trans (congrArg (r' :: ·) later)
        obtain ⟨before, after, rfl, apart, here, same⟩ := ih inner
        refine ⟨before, after, rfl, apart.cons ?_, same⟩
        rintro rfl
        cases here

/-! ### Numbers -/

def isNumeric (c : Char) : Bool := isAsciiDigit c || c == '.'

def numeral (cs : List Char) : List Char := cs.takeWhile isNumeric

theorem class_spec (c : Char) :
    match CharClass.of c with
    | .blank => isBlank c = true
    | .letter => isAsciiLetter c = true
    | .digit => isNumeric c = true
    | .other => isBlank c = false ∧ isAsciiLetter c = false ∧ isNumeric c = false := by
  unfold CharClass.of isNumeric
  cases isBlank c
  · cases isAsciiLetter c
    · cases isAsciiDigit c || c == '.' <;> simp
    · simp
  · simp

theorem class_eq_digit_iff {c : Char} : CharClass.of c = .digit ↔ isNumeric c = true := by
  constructor
  · intro digit
    have spec := class_spec c
    rwa [digit] at spec
  · intro numeric
    rw [isNumeric, Bool.or_eq_true, beq_iff_eq] at numeric
    rcases numeric with digit | rfl
    · exact CharClass.of_digit digit
    · decide

theorem numeral_of_runs {cs : List Char} {r : Run} {rs : List Run} (split : runs cs = r :: rs)
    (number : r.kind = .digit) : numeral cs = r.chars := by
  have parted : runs cs = [r] ++ rs := split
  obtain ⟨before, after, rfl, apart, first, -⟩ := split_of_runs parted
  have chars : before = r.chars := by rw [← chars_runs before, first, List.flatMap_singleton]
  subst chars
  have inside : r ∈ runs (r.chars ++ after) := by simp [split]
  have digits (c : Char) (member : c ∈ r.chars) : CharClass.of c = .digit :=
    (kind_of_mem_runs inside c member).trans number
  have numeric (c : Char) (member : c ∈ r.chars) : isNumeric c = true :=
    class_eq_digit_iff.mp (digits c member)
  rw [numeral, List.takeWhile_append_of_pos numeric]
  cases after with
  | nil => exact List.append_nil _
  | cons d ds =>
    have last := List.getLast?_eq_some_getLast (List.cons_ne_nil r.first r.rest)
    have stop : ¬ isNumeric d = true := by
      intro more
      have digit := class_eq_digit_iff.mpr more
      refine apart _ last d rfl ⟨?_, by rw [digit]; rfl⟩
      rw [digit]
      exact digits _ (List.mem_of_getLast? last)
    simp [stop]

theorem count_point (cs : List Char) : cs.count '.' = (cs.dropWhile (· != '.')).count '.' := by
  induction cs with
  | nil => rfl
  | cons c cs ih =>
    by_cases point : c = '.'
    · simp [point]
    · simp [point, ih]

theorem readPlain?_eq_none_iff {α : Type} [OfScientific α] {cs : List Char} :
    readPlain? (α := α) cs = none ↔ 2 ≤ cs.count '.' := by
  unfold readPlain?
  rw [count_point]
  cases fraction : cs.dropWhile (· != '.') with
  | nil => simp
  | cons c places =>
    have head := List.head?_dropWhile_not (· != '.') cs
    rw [fraction] at head
    obtain rfl : c = '.' := by simpa using head
    simp

/-! ### Faults -/

def BeginsToken (c : Char) : Prop :=
  c = '(' ∨ c = ')' ∨ (∃ op : Op, c = op.symbol) ∨ isAsciiDigit c = true ∨ isAsciiLetter c = true

/-- Why nothing can be read at the beginning of a text, which stands at a column: the character
there, which the fault names, is no blank and begins no token, or the run of digits and points
there, which the fault names, begins with a digit and has two points at least. -/
inductive Unreadable (column : Nat) : List Char → ExprError → Prop
  | character {c : Char} {cs : List Char} (visible : isBlank c = false) (odd : ¬ BeginsToken c) :
      Unreadable column (c :: cs) (.unexpectedCharacter c column)
  | number {c : Char} {cs : List Char} (digit : isAsciiDigit c = true)
      (points : 2 ≤ (numeral (c :: cs)).count '.') :
      Unreadable column (c :: cs) (.malformedNumber (String.ofList (numeral (c :: cs))) column)

variable {α : Type} [OfScientific α]

theorem not_beginsToken_point : ¬ BeginsToken '.' := by
  rintro (same | same | ⟨op, same⟩ | digit | letter)
  · cases same
  · cases same
  · cases op <;> cases same
  · cases digit
  · cases letter

theorem ofSymbol?_eq_none_iff {c : Char} : Op.ofSymbol? c = none ↔ ∀ op : Op, c ≠ op.symbol := by
  unfold Op.ofSymbol?
  rw [List.find?_eq_none]
  constructor
  · intro missing op same
    exact missing op (by cases op <;> decide) (by simp [same])
  · intro missing op _ same
    exact missing op (beq_iff_eq.mp same).symm

theorem number_eq_error_iff {c : Char} {cs rest : List Char} {rs : List Run} {column : Nat}
    {fault : ExprError} (split : runs (c :: cs) = ⟨.digit, c, rest⟩ :: rs) :
    (Run.mk .digit c rest).token? (α := α) column = .error fault ↔
      Unreadable column (c :: cs) fault := by
  have whole : numeral (c :: cs) = c :: rest := numeral_of_runs split rfl
  unfold Run.token?
  dsimp only [Run.chars]
  split
  · rename_i point
    obtain rfl := beq_iff_eq.mp point
    constructor
    · intro failed
      obtain rfl := Except.error.inj failed
      exact .character rfl not_beginsToken_point
    · intro unreadable
      cases unreadable with
      | character visible odd => rfl
      | number digit points => cases digit
  · rename_i point
    have numeric : isNumeric c = true := List.mem_takeWhile_imp (whole ▸ List.mem_cons_self)
    have digit : isAsciiDigit c = true := by simpa [isNumeric, point] using numeric
    rw [← whole]
    constructor
    · intro failed
      split at failed
      · cases failed
      · rename_i unread
        obtain rfl := Except.error.inj failed
        exact .number digit (readPlain?_eq_none_iff.mp unread)
    · intro unreadable
      cases unreadable with
      | character visible odd => exact absurd (by simp [BeginsToken, digit]) odd
      | number digit points => rw [readPlain?_eq_none_iff.mpr points]

theorem other_eq_error_iff {c : Char} {cs rest : List Char} {column : Nat} {fault : ExprError}
    (kind : CharClass.of c = .other) :
    (Run.mk .other c rest).token? (α := α) column = .error fault ↔
      Unreadable column (c :: cs) fault := by
  have spec := class_spec c
  rw [kind] at spec
  obtain ⟨visible, letter, numeric⟩ := spec
  have digit : isAsciiDigit c = false := by
    rw [isNumeric, Bool.or_eq_false_iff] at numeric
    exact numeric.1
  unfold Run.token?
  dsimp only
  constructor
  · intro failed
    split at failed
    · cases failed
    split at failed
    · cases failed
    split at failed
    · cases failed
    · rename_i opened closed _ unknown
      obtain rfl := Except.error.inj failed
      rw [ofSymbol?_eq_none_iff] at unknown
      simp only [beq_iff_eq] at opened closed
      exact .character visible (by simp [BeginsToken, digit, letter, unknown, opened, closed])
  · intro unreadable
    cases unreadable with
    | character visible odd =>
      simp only [BeginsToken, not_or, not_exists] at odd
      have unknown := ofSymbol?_eq_none_iff.mpr odd.2.2.1
      simp [odd.1, odd.2.1, unknown]
    | number digit' points => simp [digit] at digit'

/-- The first run of a text spells nothing exactly if the text cannot be read at its beginning. -/
theorem token?_eq_error_iff {cs : List Char} {r : Run} {rs : List Run} {column : Nat}
    {fault : ExprError} (split : runs cs = r :: rs) :
    r.token? (α := α) column = .error fault ↔ Unreadable column cs fault := by
  cases cs with
  | nil => cases split
  | cons c cs =>
  obtain ⟨rest, rs', head⟩ := runs_head c cs
  obtain rfl := (List.cons.inj (head.symm.trans split)).1
  have spec := class_spec c
  cases kind : CharClass.of c with
  | blank =>
    rw [kind] at spec
    refine ⟨nofun, fun unreadable => ?_⟩
    cases unreadable with
    | character visible odd => simp [spec] at visible
    | number digit points => simp [CharClass.of_digit digit] at kind
  | letter =>
    rw [kind] at spec
    refine ⟨nofun, fun unreadable => ?_⟩
    cases unreadable with
    | character visible odd => exact absurd (by simp [BeginsToken, spec]) odd
    | number digit points => simp [CharClass.of_digit digit] at kind
  | digit => exact number_eq_error_iff (kind ▸ split)
  | other => exact other_eq_error_iff kind

/-! ### The scan -/

theorem scanRuns_eq_error_iff {rs : List Run} {column : Nat} {fault : ExprError} :
    scanRuns (α := α) column rs = .error fault ↔ ∃ read r later, rs = read ++ r :: later ∧
      (∃ ts, scanRuns (α := α) column read = .ok ts) ∧
      r.token? (α := α) (column + (read.flatMap Run.chars).length) = .error fault := by
  constructor
  · intro failed
    induction rs generalizing column with
    | nil => cases failed
    | cons r rs ih =>
      rw [scanRuns] at failed
      cases here : r.token? (α := α) column with
      | error fault' =>
        rw [here] at failed
        exact ⟨[], r, rs, rfl, ⟨[], rfl⟩, here.trans (congrArg _ (Except.error.inj failed))⟩
      | ok token =>
        cases after : scanRuns (α := α) (column + r.chars.length) rs with
        | ok tokens =>
          rw [here, after] at failed
          cases failed
        | error fault' =>
          rw [here, after] at failed
          obtain ⟨read, r', later, rfl, ⟨ts, reads⟩, stop⟩ := ih (after.trans failed)
          refine ⟨r :: read, r', later, rfl, ⟨token.toList ++ ts, ?_⟩, ?_⟩
          · exact scanRuns_cons_eq_ok.mpr ⟨token, ts, here, reads, rfl⟩
          · simpa [Nat.add_assoc] using stop
  · rintro ⟨read, r, later, rfl, ⟨ts, reads⟩, stop⟩
    rw [scanRuns_append_eq, reads, scanRuns, stop]
    rfl

/-- A text fails at the first place where a run cannot be read. -/
theorem scanRuns_runs_eq_error_iff {cs : List Char} {fault : ExprError} :
    scanRuns (α := α) 0 (runs cs) = .error fault ↔ ∃ before after, cs = before ++ after ∧
      Apart before after ∧ (∃ ts, scanRuns (α := α) 0 (runs before) = .ok ts) ∧
      Unreadable before.length after fault := by
  rw [scanRuns_eq_error_iff]
  constructor
  · rintro ⟨read, r, later, split, reads, stop⟩
    obtain ⟨before, after, rfl, apart, rfl, first⟩ := split_of_runs split
    rw [chars_runs, Nat.zero_add] at stop
    exact ⟨before, after, rfl, apart, reads, (token?_eq_error_iff first).mp stop⟩
  · rintro ⟨before, after, rfl, apart, reads, unreadable⟩
    obtain ⟨r, rs, first⟩ : ∃ r rs, runs after = r :: rs := by
      cases unreadable <;> exact ⟨_, _, (runs_head _ _).choose_spec.choose_spec⟩
    refine ⟨runs before, r, rs, by rw [runs_append apart, first], reads, ?_⟩
    rw [chars_runs, Nat.zero_add]
    exact (token?_eq_error_iff first).mpr unreadable

/-- Where a text can be read, no run of it is unreadable. -/
theorem not_unreadable {before after : List Char} {fault : ExprError} {ts : List (Token α)}
    (scanned : scanRuns 0 (runs (before ++ after)) = .ok ts) (apart : Apart before after) :
    ¬ Unreadable before.length after fault := by
  intro unreadable
  cases first : scanRuns (α := α) 0 (runs before) with
  | error fault' =>
    rw [runs_append apart, scanRuns_append_eq, first] at scanned
    cases scanned
  | ok us =>
    have failed := scanRuns_runs_eq_error_iff.mpr
      ⟨before, after, rfl, apart, ⟨us, first⟩, unreadable⟩
    rw [scanned] at failed
    cases failed

/-! ### Texts -/

theorem message_of_unreadable {column : Nat} {cs : List Char} {fault : ExprError}
    (unreadable : Unreadable column cs fault) : ∃ label named, named ≠ [] ∧ named <+: cs ∧
      fault.message = label ++ String.ofList named ++ "' (column " ++ ofNat column ++ ")" := by
  cases unreadable with
  | @character c cs visible odd =>
    exact ⟨"Unexpected character '", [c], List.cons_ne_nil c [], ⟨cs, rfl⟩, rfl⟩
  | @number c cs digit points =>
    have first : isNumeric c = true := by simp [isNumeric, digit]
    refine ⟨"Malformed number '", numeral (c :: cs), ?_, List.takeWhile_prefix _, rfl⟩
    rw [numeral, List.takeWhile_cons_of_pos first]
    exact List.cons_ne_nil _ _

variable (α) in
/-- Whether a fault tells where a text stops being readable. -/
structure PointsAt (fault : ExprError) (text : String) (k : Nat) : Prop where
  inside : k < text.toList.length
  apart : Apart (text.toList.take k) (text.toList.drop k)
  readable : ∃ ts, scan (α := α) (String.ofList (text.toList.take k)) = .ok ts
  unreadable : Unreadable k (text.toList.drop k) fault
  message : ∃ label named, named ≠ [] ∧ named <+: text.toList.drop k ∧
    fault.message = label ++ String.ofList named ++ "' (column " ++ ofNat k ++ ")"

theorem scan_eq_error_iff {text : String} {fault : ExprError} :
    scan (α := α) text = .error fault ↔ ∃ k, PointsAt α fault text k := by
  rw [scan, scanRuns_runs_eq_error_iff]
  constructor
  · rintro ⟨before, after, split, apart, reads, unreadable⟩
    have first : text.toList.take before.length = before := by rw [split, List.take_left]
    have second : text.toList.drop before.length = after := by rw [split, List.drop_left]
    have inside : before.length < text.toList.length := by
      rw [split, List.length_append]
      cases unreadable <;> simp
    rw [← second] at unreadable
    refine ⟨before.length, inside, ?_, ?_, unreadable, message_of_unreadable unreadable⟩
    · rwa [first, second]
    · rwa [scan, String.toList_ofList, first]
  · rintro ⟨k, points⟩
    refine ⟨_, _, (List.take_append_drop k _).symm, points.apart, ?_, ?_⟩
    · simpa [scan] using points.readable
    · rw [List.length_take_of_le (Nat.le_of_lt points.inside)]
      exact points.unreadable

/-- The scanner fails exactly at the first column where a run begins that cannot be read; it reads
every text that has no such column. The columns are those at which the words are found. -/
theorem scan_fault (text : String) :
    (∀ fault, scan (α := α) text = .error fault ↔ ∃ k, PointsAt α fault text k) ∧
    ((∃ ts, scan (α := α) text = .ok ts) ↔ ∀ k fault,
      Apart (text.toList.take k) (text.toList.drop k) → ¬ Unreadable k (text.toList.drop k) fault) ∧
    scanWords α text.toList 0 (words text.toList) = some (scan text) := by
  refine ⟨fun fault => scan_eq_error_iff, ⟨?_, ?_⟩, scanWords_eq text⟩
  · rintro ⟨ts, scanned⟩ k fault apart unreadable
    have inside : k ≤ text.toList.length := by
      by_contra outside
      rw [List.drop_eq_nil_of_le (by omega)] at unreadable
      cases unreadable
    have here : Unreadable (text.toList.take k).length (text.toList.drop k) fault := by
      rwa [List.length_take_of_le inside]
    rw [scan, ← List.take_append_drop k text.toList] at scanned
    exact not_unreadable scanned apart here
  · intro readable
    cases scanned : scan (α := α) text with
    | ok ts => exact ⟨ts, rfl⟩
    | error fault =>
      obtain ⟨k, points⟩ := scan_eq_error_iff.mp scanned
      exact absurd points.unreadable (readable k fault points.apart)

/-- The text before the number has a word that is part of it. -/
example : (scan "1 + 1..1" : Except ExprError (List (Token Float))) =
    .error (.malformedNumber "1..1" 4) := rfl

end Equate
