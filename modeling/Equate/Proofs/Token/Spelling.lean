import Equate.Rpn
import Equate.Token.Scan

/-!
# Texts and the tokens they spell

Texts put side by side are split as each of them alone, unless a run of characters goes on from the
one into the other (`runs_append`). So what a text spells, and how many words it has, follows from
its parts.
-/

namespace Equate

open Text

/-! ### Characters -/

theorem isAsciiDigit_iff {c : Char} : isAsciiDigit c = true ↔ 0x30 ≤ c.toNat ∧ c.toNat ≤ 0x39 := by
  simp [isAsciiDigit, Char.le_def, UInt32.le_iff_toNat_le]

theorem isAsciiLetter_iff {c : Char} : isAsciiLetter c = true ↔
    (0x41 ≤ c.toNat ∧ c.toNat ≤ 0x5a) ∨ (0x61 ≤ c.toNat ∧ c.toNat ≤ 0x7a) := by
  simp [isAsciiLetter, Char.le_def, UInt32.le_iff_toNat_le]

theorem isBlank_eq_false {c : Char} (low : 0x20 < c.toNat) (high : c.toNat < 0x7f) :
    isBlank c = false := by
  unfold isBlank
  generalize c.toNat = n at low high
  simp only [Bool.or_eq_false_iff, Bool.and_eq_false_iff, decide_eq_false_iff_not,
    beq_eq_false_iff_ne]
  omega

namespace CharClass

theorem of_letter {c : Char} (letter : isAsciiLetter c = true) : CharClass.of c = .letter := by
  have range := isAsciiLetter_iff.mp letter
  have visible : isBlank c = false := isBlank_eq_false (by omega) (by omega)
  simp [CharClass.of, visible, letter]

theorem of_digit {c : Char} (digit : isAsciiDigit c = true) : CharClass.of c = .digit := by
  have range := isAsciiDigit_iff.mp digit
  have visible : isBlank c = false := isBlank_eq_false (by omega) (by omega)
  have other : isAsciiLetter c = false := by
    rw [← Bool.not_eq_true, isAsciiLetter_iff]
    omega
  simp [CharClass.of, visible, other, digit]

end CharClass

/-! ### Runs -/

/-- Whether two texts side by side keep their runs apart. -/
def Apart (cs ds : List Char) : Prop :=
  ∀ a ∈ cs.getLast?, ∀ b ∈ ds.head?, ¬ (CharClass.of a = CharClass.of b ∧ (CharClass.of b).grows)

theorem apart_of_single {c : Char} (single : (CharClass.of c).grows = false) (ds : List Char) :
    Apart [c] ds := by
  rintro a ⟨⟩ b first ⟨same, grows⟩
  rw [← same] at grows
  exact Bool.false_ne_true (single.symm.trans grows)

theorem runs_cons (c : Char) (cs : List Char) : runs (c :: cs) = Run.cons c (runs cs) := rfl

/-- A character in front stands alone, or goes on into the first run. -/
theorem runs_cons_cases (c : Char) (cs : List Char) :
    runs (c :: cs) = ⟨CharClass.of c, c, []⟩ :: runs cs ∨
      ∃ r rs, runs cs = r :: rs ∧ CharClass.of c = r.kind ∧ r.kind.grows = true ∧
        runs (c :: cs) = ⟨r.kind, c, r.chars⟩ :: rs := by
  rw [runs_cons]
  cases runs cs with
  | nil => exact Or.inl rfl
  | cons r rs =>
    unfold Run.cons
    dsimp only
    split
    · rename_i joined
      exact Or.inr ⟨r, rs, rfl, joined.1, joined.2, rfl⟩
    · exact Or.inl rfl

theorem runs_head (c : Char) (cs : List Char) :
    ∃ rest rs, runs (c :: cs) = ⟨CharClass.of c, c, rest⟩ :: rs := by
  rcases runs_cons_cases c cs with alone | ⟨r, rs, -, same, -, joined⟩
  · exact ⟨[], _, alone⟩
  · exact ⟨r.chars, rs, by rw [joined, same]⟩

theorem runs_append {cs ds : List Char} (apart : Apart cs ds) :
    runs (cs ++ ds) = runs cs ++ runs ds := by
  induction cs with
  | nil => rfl
  | cons c cs ih =>
    rw [List.cons_append, runs_cons, runs_cons]
    cases cs with
    | nil =>
      cases ds with
      | nil => rfl
      | cons d ds =>
        obtain ⟨rest, rs, first⟩ := runs_head d ds
        have separate := apart c rfl d rfl
        rw [List.nil_append, first]
        exact if_neg separate
    | cons c' cs =>
      have later : Apart (c' :: cs) ds := by
        intro a last b first
        exact apart a (by rwa [List.getLast?_cons_cons]) b first
      obtain ⟨rest, rs, first⟩ := runs_head c' cs
      rw [ih later, first, List.cons_append]
      unfold Run.cons
      dsimp only
      split <;> rfl

theorem runs_of_class {k : CharClass} (grows : k.grows = true) {c : Char} {cs : List Char}
    (same : ∀ d ∈ c :: cs, CharClass.of d = k) : runs (c :: cs) = [⟨k, c, cs⟩] := by
  induction cs generalizing c with
  | nil =>
    have here := same c List.mem_cons_self
    rw [runs_cons]
    exact congrArg (fun k => [Run.mk k c []]) here
  | cons d cs ih =>
    have here := same c List.mem_cons_self
    rw [runs_cons, ih fun e member => same e (List.mem_cons_of_mem c member)]
    exact if_pos ⟨here, grows⟩

/-! ### Solid texts -/

/-- Whether a text has characters, but no blank at its ends. -/
def Solid (cs : List Char) : Prop :=
  cs ≠ [] ∧ (∀ c ∈ cs.head?, CharClass.of c ≠ .blank) ∧ ∀ c ∈ cs.getLast?, CharClass.of c ≠ .blank

theorem solid_of_all {cs : List Char} (nonempty : cs ≠ [])
    (visible : ∀ c ∈ cs, CharClass.of c ≠ .blank) : Solid cs :=
  ⟨nonempty, fun c first => visible c (List.mem_of_mem_head? first),
    fun c last => visible c (List.mem_of_mem_getLast? last)⟩

def IsWord (x : String) : Prop := x.toList ≠ [] ∧ ∀ c ∈ x.toList, isAsciiLetter c = true

instance : DecidablePred IsWord := fun x =>
  decidable_of_iff (x.toList ≠ [] ∧ x.toList.all isAsciiLetter = true) (by simp [IsWord])

theorem IsWord.solid {x : String} (word : IsWord x) : Solid x.toList := by
  refine solid_of_all word.1 fun c member => ?_
  rw [CharClass.of_letter (word.2 c member)]
  decide

theorem IsWord.runs {x : String} (word : IsWord x) {c : Char} {cs : List Char}
    (split : x.toList = c :: cs) : runs (c :: cs) = [⟨.letter, c, cs⟩] :=
  runs_of_class rfl fun d member => CharClass.of_letter (word.2 d (split ▸ member))

def spaced (op : Op) : List Char := [' ', op.symbol, ' ']

def bracketed (cs : List Char) : List Char := '(' :: cs ++ [')']

theorem solid_bracketed (cs : List Char) : Solid (bracketed cs) := by
  refine ⟨List.cons_ne_nil _ _, ?_, ?_⟩
  · rintro c ⟨⟩
    decide
  · intro c last
    rw [bracketed, List.getLast?_concat] at last
    cases last
    decide

theorem solid_spaced {cs ds : List Char} (op : Op) (left : Solid cs) (right : Solid ds) :
    Solid (cs ++ spaced op ++ ds) := by
  refine ⟨by simp [spaced], fun c first => left.2.1 c ?_, fun c last => right.2.2 c ?_⟩
  · obtain ⟨d, rest, rfl⟩ := List.exists_cons_of_ne_nil left.1
    exact first
  · rwa [List.getLast?_append, List.getLast?_eq_some_getLast right.1, Option.some_or,
      ← List.getLast?_eq_some_getLast] at last

theorem runs_bracketed (cs : List Char) :
    runs (bracketed cs) = runs ['('] ++ runs cs ++ runs [')'] := by
  have opened : Apart ['('] cs := apart_of_single rfl cs
  have closed : Apart ('(' :: cs) [')'] := by
    rintro a last b ⟨⟩ ⟨-, grows⟩
    cases grows
  rw [bracketed, runs_append closed]
  exact congrArg (· ++ _) (runs_append opened)

theorem runs_spaced {cs ds : List Char} (op : Op) (left : Solid cs) (right : Solid ds) :
    runs (cs ++ spaced op ++ ds) = runs cs ++ runs (spaced op) ++ runs ds := by
  have before : Apart cs (spaced op) := by
    rintro a last b ⟨⟩ ⟨same, -⟩
    exact left.2.2 a last same
  have after : Apart (cs ++ spaced op) ds := by
    rintro a last b first ⟨same, -⟩
    have blank : a = ' ' := by simpa [spaced, eq_comm] using last
    subst blank
    exact right.2.1 b first same.symm
  rw [runs_append after, runs_append before]

/-! ### Spelling -/

variable {α : Type} [OfScientific α]

/-- Whether a text is split into the tokens, wherever it begins. -/
def Spells (cs : List Char) (ts : List (Token α)) : Prop :=
  ∀ column, scanRuns column (runs cs) = .ok ts

theorem scan_of_spells {text : String} {ts : List (Token α)} (spelled : Spells text.toList ts) :
    scan text = .ok ts := spelled 0

theorem scanRuns_cons_eq_ok {r : Run} {rs : List Run} {ts : List (Token α)} {column : Nat} :
    scanRuns column (r :: rs) = .ok ts ↔ ∃ token tokens, r.token? column = .ok token ∧
      scanRuns (column + r.chars.length) rs = .ok tokens ∧ ts = token.toList ++ tokens := by
  rw [scanRuns]
  cases here : r.token? (α := α) column with
  | error fault =>
    refine ⟨fun scanned => ?_, fun ⟨token, tokens, spelled, _⟩ => ?_⟩
    · cases scanned
    · cases spelled
  | ok token =>
    cases later : scanRuns (α := α) (column + r.chars.length) rs with
    | error fault =>
      refine ⟨fun scanned => ?_, fun ⟨token, tokens, _, scanned, _⟩ => ?_⟩
      · cases scanned
      · cases scanned
    | ok tokens =>
      constructor
      · intro scanned
        exact ⟨token, tokens, rfl, rfl, (Except.ok.inj scanned).symm⟩
      · rintro ⟨_, _, ⟨⟩, ⟨⟩, rfl⟩
        rfl

theorem scanRuns_append {rs rs' : List Run} {ts us : List (Token α)} {column : Nat}
    (first : scanRuns column rs = .ok ts) (second : ∀ column, scanRuns column rs' = .ok us) :
    scanRuns column (rs ++ rs') = .ok (ts ++ us) := by
  induction rs generalizing column ts with
  | nil =>
    obtain rfl := Except.ok.inj first
    exact second column
  | cons r rs ih =>
    obtain ⟨token, tokens, spelled, later, rfl⟩ := scanRuns_cons_eq_ok.mp first
    rw [List.cons_append, List.append_assoc]
    exact scanRuns_cons_eq_ok.mpr ⟨token, tokens ++ us, spelled, ih later, rfl⟩

theorem Spells.append {cs ds : List Char} {ts us : List (Token α)} (apart : Apart cs ds)
    (first : Spells cs ts) (second : Spells ds us) : Spells (cs ++ ds) (ts ++ us) := by
  intro column
  rw [runs_append apart]
  exact scanRuns_append (first column) second

theorem spells_of_run {cs : List Char} {r : Run} {token : Option (Token α)} (single : runs cs = [r])
    (spelled : ∀ column, r.token? column = .ok token) : Spells cs token.toList := by
  intro column
  rw [single, scanRuns, spelled column]
  simp only [scanRuns]
  exact congrArg Except.ok (List.append_nil _)

theorem spells_word {x : String} (word : IsWord x) : Spells x.toList [(.name x : Token α)] := by
  obtain ⟨c, cs, split⟩ := List.exists_cons_of_ne_nil word.1
  have single := word.runs split
  have spelled (column : Nat) :
      (Run.mk .letter c cs).token? column = .ok (some (.name x : Token α)) := by
    rw [← String.ofList_toList (s := x), split]
    rfl
  rw [split]
  exact spells_of_run single spelled

theorem spells_number {c : Char} {cs : List Char} {v : α}
    (digits : ∀ d ∈ c :: cs, CharClass.of d = .digit) (first : c ≠ '.')
    (read : readPlain? (c :: cs) = some v) : Spells (c :: cs) [(.literal v : Token α)] := by
  have single := runs_of_class (k := .digit) rfl digits
  have spelled (column : Nat) : (Run.mk .digit c cs).token? column = .ok (some (.literal v)) := by
    simp [Run.token?, Run.chars, first, read]
  exact spells_of_run single spelled

theorem spells_spaced (op : Op) : Spells (spaced op) [(.operator .parsed op : Token α)] := by
  intro column
  cases op <;> rfl

theorem Spells.bracketed {cs : List Char} {ts : List (Token α)} (spelled : Spells cs ts) :
    Spells (bracketed cs) (.openParen :: ts ++ [.closeParen]) := by
  intro column
  have opened : Spells ['('] [(.openParen : Token α)] := fun _ => rfl
  have closed : Spells [')'] [(.closeParen : Token α)] := fun _ => rfl
  rw [runs_bracketed]
  exact scanRuns_append (scanRuns_append (opened column) spelled) closed

theorem Spells.spaced {cs ds : List Char} {ts us : List (Token α)} (op : Op) (left : Solid cs)
    (right : Solid ds) (first : Spells cs ts) (second : Spells ds us) :
    Spells (cs ++ spaced op ++ ds) (ts ++ .operator .parsed op :: us) := by
  intro column
  rw [runs_spaced op left right,
    show ts ++ .operator .parsed op :: us = ts ++ [.operator .parsed op] ++ us by simp]
  exact scanRuns_append (scanRuns_append (first column) (spells_spaced op)) second

/-! ### Words -/

def wordCount (cs : List Char) : Nat := (runs cs).countP fun r => r.kind == .letter

theorem wordCount_bracketed (cs : List Char) : wordCount (bracketed cs) = wordCount cs := by
  unfold wordCount
  rw [runs_bracketed, List.countP_append, List.countP_append]
  have opened : (runs ['(']).countP (fun r => r.kind == .letter) = 0 := rfl
  have closed : (runs [')']).countP (fun r => r.kind == .letter) = 0 := rfl
  rw [opened, closed, Nat.zero_add, Nat.add_zero]

theorem wordCount_spaced {cs ds : List Char} (op : Op) (left : Solid cs) (right : Solid ds) :
    wordCount (cs ++ spaced op ++ ds) = wordCount cs + wordCount ds := by
  unfold wordCount
  rw [runs_spaced op left right, List.countP_append, List.countP_append]
  have none_there : (runs (spaced op)).countP (fun r => r.kind == .letter) = 0 := by
    cases op <;> rfl
  rw [none_there, Nat.add_zero]

theorem wordCount_word {x : String} (word : IsWord x) : wordCount x.toList = 1 := by
  obtain ⟨c, cs, split⟩ := List.exists_cons_of_ne_nil word.1
  rw [wordCount, split, word.runs split]
  rfl

theorem wordCount_pos {c : Char} {cs : List Char} (letter : isAsciiLetter c = true)
    (member : c ∈ cs) : 0 < wordCount cs := by
  have kind := CharClass.of_letter letter
  induction cs with
  | nil => cases member
  | cons d cs ih =>
    rw [wordCount]
    rcases List.mem_cons.mp member with rfl | later
    · obtain ⟨rest, rs, first⟩ := runs_head c cs
      rw [first, kind, List.countP_cons_of_pos rfl]
      exact Nat.succ_pos _
    · have some_word := ih later
      rw [wordCount] at some_word
      rcases runs_cons_cases d cs with alone | ⟨r, rs, split, -, -, joined⟩
      · rw [alone]
        exact Nat.lt_of_lt_of_le some_word (List.Sublist.countP_le (List.sublist_cons_self _ _))
      · rw [split] at some_word
        rw [joined]
        exact some_word

/-- What a run can spell. -/
theorem token?_cases {r : Run} {column : Nat} {token : Option (Token α)}
    (spelled : r.token? column = .ok token) :
    (r.kind = .blank ∧ token = none) ∨
    (r.kind = .letter ∧ token = some (.name (String.ofList r.chars))) ∨
    (r.kind = .digit ∧ ∃ v, readPlain? r.chars = some v ∧ token = some (.literal v)) ∨
    (r.kind = .other ∧ (token = some .openParen ∨ token = some .closeParen ∨
      ∃ op, token = some (.operator .parsed op))) := by
  obtain ⟨kind, c, cs⟩ := r
  cases kind with
  | blank => exact Or.inl ⟨rfl, (Except.ok.inj spelled).symm⟩
  | letter => exact Or.inr (Or.inl ⟨rfl, (Except.ok.inj spelled).symm⟩)
  | digit =>
    refine Or.inr (Or.inr (Or.inl ⟨rfl, ?_⟩))
    simp only [Run.token?] at spelled
    split at spelled
    · cases spelled
    · split at spelled
      · rename_i v read
        exact ⟨v, read, (Except.ok.inj spelled).symm⟩
      · cases spelled
  | other =>
    refine Or.inr (Or.inr (Or.inr ⟨rfl, ?_⟩))
    simp only [Run.token?] at spelled
    split at spelled
    · exact Or.inl (Except.ok.inj spelled).symm
    · split at spelled
      · exact Or.inr (Or.inl (Except.ok.inj spelled).symm)
      · split at spelled
        · rename_i op found
          exact Or.inr (Or.inr ⟨op, (Except.ok.inj spelled).symm⟩)
        · cases spelled

theorem length_names_token {r : Run} {column : Nat} {token : Option (Token α)}
    (spelled : r.token? column = .ok token) :
    (Rpn.names token.toList).length = if r.kind == .letter then 1 else 0 := by
  rcases token?_cases spelled with ⟨kind, rfl⟩ | ⟨kind, rfl⟩ | ⟨kind, v, -, rfl⟩ |
      ⟨kind, rfl | rfl | ⟨op, rfl⟩⟩
  all_goals
    rw [kind]
    rfl

/-- The variables of what a text spells are its words. -/
theorem length_names_scanRuns {rs : List Run} {ts : List (Token α)} {column : Nat}
    (scanned : scanRuns column rs = .ok ts) :
    (Rpn.names ts).length = rs.countP fun r => r.kind == .letter := by
  induction rs generalizing column ts with
  | nil =>
    obtain rfl := Except.ok.inj scanned
    rfl
  | cons r rs ih =>
    obtain ⟨token, tokens, spelled, later, rfl⟩ := scanRuns_cons_eq_ok.mp scanned
    have split : Rpn.names (token.toList ++ tokens) = Rpn.names token.toList ++ Rpn.names tokens :=
      List.filterMap_append
    rw [split, List.length_append, length_names_token spelled, ih later, List.countP_cons,
      Nat.add_comm]

theorem length_names_scan {text : String} {ts : List (Token α)} (scanned : scan text = .ok ts) :
    (Rpn.names ts).length = wordCount text.toList := length_names_scanRuns scanned

/-! ### What can be spelled -/

def Token.Readable : Token α → Prop
  | .literal v => ∃ cs, readPlain? cs = some v
  | .name x => IsWord x
  | .operator o _ => o = .parsed
  | _ => True

theorem isAsciiLetter_of_class {c : Char} (letter : CharClass.of c = .letter) :
    isAsciiLetter c = true := by
  unfold CharClass.of at letter
  split at letter
  · cases letter
  · split at letter
    · assumption
    · split at letter <;> cases letter

theorem kind_of_mem_runs {cs : List Char} {r : Run} (member : r ∈ runs cs) :
    ∀ c ∈ r.chars, CharClass.of c = r.kind := by
  induction cs generalizing r with
  | nil => cases member
  | cons d cs ih =>
    rcases runs_cons_cases d cs with alone | ⟨r', rs, split, same, -, joined⟩
    · rw [alone] at member
      rcases List.mem_cons.mp member with rfl | later
      · exact List.forall_mem_singleton.mpr rfl
      · exact ih later
    · rw [split] at ih
      rw [joined] at member
      rcases List.mem_cons.mp member with rfl | later
      · exact List.forall_mem_cons.mpr ⟨same, ih List.mem_cons_self⟩
      · exact ih (List.mem_cons_of_mem _ later)

theorem readable_of_token? {r : Run} {column : Nat} {token : Option (Token α)}
    (uniform : ∀ c ∈ r.chars, CharClass.of c = r.kind) (spelled : r.token? column = .ok token) :
    ∀ t ∈ token, t.Readable := by
  rcases token?_cases spelled with ⟨-, rfl⟩ | ⟨kind, rfl⟩ | ⟨-, v, read, rfl⟩ |
      ⟨-, rfl | rfl | ⟨op, rfl⟩⟩
  · exact nofun
  · rintro t ⟨⟩
    refine ⟨by simp [Run.chars], fun c member => ?_⟩
    rw [String.toList_ofList] at member
    exact isAsciiLetter_of_class ((uniform c member).trans kind)
  · rintro t ⟨⟩
    exact ⟨r.chars, read⟩
  · rintro t ⟨⟩
    trivial
  · rintro t ⟨⟩
    trivial
  · rintro t ⟨⟩
    rfl

theorem readable_of_scanRuns {rs : List Run} {ts : List (Token α)} {column : Nat}
    (uniform : ∀ r ∈ rs, ∀ c ∈ r.chars, CharClass.of c = r.kind)
    (scanned : scanRuns column rs = .ok ts) : ∀ t ∈ ts, t.Readable := by
  induction rs generalizing column ts with
  | nil =>
    obtain rfl := Except.ok.inj scanned
    exact nofun
  | cons r rs ih =>
    obtain ⟨token, tokens, spelled, later, rfl⟩ := scanRuns_cons_eq_ok.mp scanned
    intro t member
    rcases List.mem_append.mp member with here | after
    · have first := uniform r List.mem_cons_self
      exact readable_of_token? first spelled t (Option.mem_toList.mp here)
    · exact ih (fun r' inside => uniform r' (List.mem_cons_of_mem r inside)) later t after

theorem readable_of_scan {text : String} {ts : List (Token α)} (scanned : scan text = .ok ts) :
    ∀ t ∈ ts, t.Readable := readable_of_scanRuns (fun _ => kind_of_mem_runs) scanned

end Equate
