import Equate.Proofs.Number.Numerals

/-!
# Separated lexemes

A text that is put together from words, numerals, operators and parentheses, with any blanks around
and between them, is split into exactly these (`scan_layOut`). Only two words, and two numerals,
need a blank between them.
-/

namespace Equate

open Number Text

structure Gap where
  chars : List Char
  blank : ∀ c ∈ chars, isBlank c = true

/-- What spells a single token. -/
inductive Lexeme where
  | word (x : String) (isWord : IsWord x)
  | numeral (cs : List Char) (isNumeral : IsNumeral cs)
  | operator (op : Op)
  | openParen
  | closeParen

namespace Lexeme

def chars : Lexeme → List Char
  | word x _ => x.toList
  | numeral cs _ => cs
  | operator op => [op.symbol]
  | openParen => ['(']
  | closeParen => [')']

/-- The token that is spelled. A numeral has the value of the number that its text gives. -/
def token? : Lexeme → Option (Token Float)
  | word x _ => some (.name x)
  | numeral cs _ => (readFloat? (String.ofList cs)).map .literal
  | operator op => some (.operator .parsed op)
  | openParen => some .openParen
  | closeParen => some .closeParen

/-- Whether two lexemes side by side are taken for one. -/
def Merges : Lexeme → Lexeme → Prop
  | word .., word .. | numeral .., numeral .. => True
  | _, _ => False

def kind : Lexeme → CharClass
  | word .. => .letter
  | numeral .. => .digit
  | _ => .other

theorem chars_ne_nil (l : Lexeme) : l.chars ≠ [] := by
  cases l with
  | word x isWord => exact isWord.1
  | numeral cs isNumeral =>
    rintro rfl
    obtain ⟨c, head, -⟩ := isNumeral.first
    cases head
  | _ => exact List.cons_ne_nil _ _

theorem class_of_mem (l : Lexeme) {c : Char} (member : c ∈ l.chars) :
    CharClass.of c = l.kind := by
  cases l with
  | word x isWord => exact CharClass.of_letter (isWord.2 c member)
  | numeral cs isNumeral =>
    rcases isNumeral.digits c member with digit | rfl
    · exact CharClass.of_digit digit
    · rfl
  | operator op =>
    obtain rfl := List.mem_singleton.mp member
    cases op <;> rfl
  | openParen =>
    obtain rfl := List.mem_singleton.mp member
    rfl
  | closeParen =>
    obtain rfl := List.mem_singleton.mp member
    rfl

theorem kind_ne_blank (l : Lexeme) : l.kind ≠ .blank := by
  cases l <;> exact CharClass.noConfusion

theorem merges_of_kind {l l' : Lexeme} (same : l.kind = l'.kind) (grows : l'.kind.grows = true) :
    l.Merges l' := by
  cases l <;> cases l' <;> trivial

theorem spells (l : Lexeme) : ∃ t, l.token? = some t ∧ Spells l.chars [t] := by
  cases l with
  | word x isWord => exact ⟨_, rfl, spells_word isWord⟩
  | numeral cs isNumeral =>
    obtain ⟨whole, places, -, digits, split⟩ := isNumeral.pointed
    obtain ⟨v, read⟩ : ∃ v : Float, readPlain? cs = some v :=
      ⟨_, readPlain?_of_pointed digits split⟩
    obtain ⟨c, head, digit⟩ := isNumeral.first
    have front := List.eq_cons_of_mem_head? head
    have classes : ∀ d ∈ c :: cs.tail, CharClass.of d = .digit := by
      rw [← front]
      exact fun d member => (numeral cs isNumeral).class_of_mem member
    refine ⟨.literal v, ?_, ?_⟩
    · rw [token?, readFloat?_of_numeral isNumeral, read, Option.map_some]
    rw [front] at read
    rw [chars, front]
    exact spells_number classes (isAsciiDigit_ne digit rfl) read
  | operator op =>
    refine ⟨_, rfl, fun column => ?_⟩
    cases op <;> rfl
  | openParen => exact ⟨_, rfl, fun _ => rfl⟩
  | closeParen => exact ⟨_, rfl, fun _ => rfl⟩

end Lexeme

/-! ### Layouts -/

/-- The characters of lexemes, each with a gap after it. -/
def layOutFrom (items : List (Lexeme × Gap)) : List Char :=
  items.flatMap fun item => item.1.chars ++ item.2.chars

/-- The text of lexemes with a gap before the first and after each. -/
def layOut (lead : Gap) (items : List (Lexeme × Gap)) : String :=
  String.ofList (lead.chars ++ layOutFrom items)

namespace Gap

theorem class_of_mem (gap : Gap) {c : Char} (member : c ∈ gap.chars) : CharClass.of c = .blank := by
  rw [CharClass.of, if_pos (gap.blank c member)]

theorem spells (gap : Gap) : Spells gap.chars ([] : List (Token Float)) := by
  cases chars : gap.chars with
  | nil => exact fun _ => rfl
  | cons c cs =>
    have single := runs_of_class (k := .blank) rfl fun d member => gap.class_of_mem (chars ▸ member)
    exact spells_of_run single fun _ => rfl

end Gap

/-- A lexeme and its gap are kept apart from what follows, unless there is no gap and the lexeme
goes on. -/
theorem apart_item {l : Lexeme} {gap : Gap} {cs : List Char}
    (visible : ∀ c ∈ cs.head?, CharClass.of c ≠ .blank)
    (separate : gap.chars = [] → ∀ c ∈ cs.head?, (CharClass.of c).grows = true →
      l.kind ≠ CharClass.of c) : Apart (l.chars ++ gap.chars) cs := by
  rintro a last b first ⟨same, grows⟩
  cases chars : gap.chars with
  | nil =>
    rw [chars, List.append_nil] at last
    rw [l.class_of_mem (List.mem_of_mem_getLast? last)] at same
    exact separate chars b first grows same
  | cons c rest =>
    rw [chars, List.getLast?_append_cons, ← chars] at last
    rw [gap.class_of_mem (List.mem_of_mem_getLast? last)] at same
    exact visible b first same.symm

/-- The characters of lexemes begin with one of the first lexeme. -/
theorem class_of_head {items : List (Lexeme × Gap)} {c : Char}
    (first : c ∈ (layOutFrom items).head?) :
    ∃ item ∈ items.head?, CharClass.of c = item.1.kind := by
  cases items with
  | nil => cases first
  | cons item rest =>
    refine ⟨item, rfl, item.1.class_of_mem ?_⟩
    obtain ⟨d, ds, chars⟩ := List.exists_cons_of_ne_nil item.1.chars_ne_nil
    rw [layOutFrom, List.flatMap_cons, chars] at first
    cases first
    rw [chars]
    exact List.mem_cons_self

theorem spells_layOutFrom {items : List (Lexeme × Gap)}
    (apart : items.IsChain fun a b => a.1.Merges b.1 → a.2.chars ≠ []) :
    ∃ ts, items.map (fun item => item.1.token?) = ts.map some ∧ Spells (layOutFrom items) ts := by
  induction items with
  | nil => exact ⟨[], rfl, fun _ => rfl⟩
  | cons item rest ih =>
    obtain ⟨l, gap⟩ := item
    obtain ⟨ts, tokens, spelled⟩ := ih apart.tail
    obtain ⟨t, token, here⟩ := l.spells
    refine ⟨t :: ts, by rw [List.map_cons, tokens, token, List.map_cons], ?_⟩
    have before : Apart l.chars gap.chars := by
      rintro a last b first ⟨same, -⟩
      rw [l.class_of_mem (List.mem_of_mem_getLast? last),
        gap.class_of_mem (List.mem_of_mem_head? first)] at same
      exact l.kind_ne_blank same
    -- with no gap in between, the next lexeme is one that this one does not merge with
    have after : Apart (l.chars ++ gap.chars) (layOutFrom rest) := by
      refine apart_item (fun c first => ?_) fun empty c first grows same => ?_
      · obtain ⟨next, -, kind⟩ := class_of_head first
        exact kind ▸ next.1.kind_ne_blank
      · obtain ⟨next, follows, kind⟩ := class_of_head first
        rw [kind] at grows same
        rw [List.eq_cons_of_mem_head? follows, List.isChain_cons_cons] at apart
        exact apart.1 (Lexeme.merges_of_kind same grows) empty
    exact Spells.append after (Spells.append before here gap.spells) spelled

/-! ### Lexemes without gaps -/

/-- Whether a text is put together from lexemes without gaps, and none goes on into the next. -/
structure Packs (ls : List Lexeme) (cs : List Char) : Prop where
  nonempty : ls ≠ []
  apart : ls.IsChain fun a b => ¬ a.Merges b
  chars : ls.flatMap Lexeme.chars = cs

namespace Packs

variable {ls : List Lexeme} {cs : List Char} (packs : Packs ls cs)
include packs

theorem spells : ∃ ts, ls.map Lexeme.token? = ts.map some ∧ Spells cs ts := by
  let close (l : Lexeme) : Lexeme × Gap := (l, ⟨[], nofun⟩)
  have apart : (ls.map close).IsChain fun a b => a.1.Merges b.1 → a.2.chars ≠ [] := by
    rw [List.isChain_map]
    exact packs.apart.imp fun a b separate merges => absurd merges separate
  have chars : layOutFrom (ls.map close) = cs := by
    rw [← packs.chars]
    simp [layOutFrom, List.flatMap_map, close]
  obtain ⟨ts, tokens, spelled⟩ := spells_layOutFrom apart
  rw [List.map_map] at tokens
  exact ⟨ts, tokens, chars ▸ spelled⟩

theorem solid : Solid cs := by
  rw [← packs.chars]
  apply solid_of_all
  · obtain ⟨l, rest, rfl⟩ := List.exists_cons_of_ne_nil packs.nonempty
    rw [List.flatMap_cons]
    exact List.append_ne_nil_of_left_ne_nil l.chars_ne_nil _
  · intro c member
    obtain ⟨l, -, inside⟩ := List.mem_flatMap.mp member
    rw [l.class_of_mem inside]
    exact l.kind_ne_blank

end Packs

theorem spells_between (lead trail : Gap) {cs : List Char} {ts : List (Token Float)}
    (solid : Solid cs) (spelled : Spells cs ts) :
    Spells (lead.chars ++ cs ++ trail.chars) ts := by
  have before : Apart lead.chars cs := by
    rintro a last b first ⟨same, -⟩
    rw [lead.class_of_mem (List.mem_of_mem_getLast? last)] at same
    exact solid.2.1 b first same.symm
  have after : Apart (lead.chars ++ cs) trail.chars := by
    rintro a last b first ⟨same, -⟩
    rw [trail.class_of_mem (List.mem_of_mem_head? first)] at same
    rw [List.getLast?_append, List.getLast?_eq_some_getLast solid.1, Option.some_or,
      ← List.getLast?_eq_some_getLast] at last
    exact solid.2.2 a last same
  have whole := Spells.append after (Spells.append before lead.spells spelled) trail.spells
  rwa [List.nil_append, List.append_nil] at whole

/-! ### Lexemes with gaps -/

/-- Lexemes are recovered from their text. -/
theorem scan_layOut (lead : Gap) {items : List (Lexeme × Gap)}
    (apart : items.IsChain fun a b => a.1.Merges b.1 → a.2.chars ≠ []) :
    ∃ ts, scan (layOut lead items) = .ok ts ∧
      items.map (fun item => item.1.token?) = ts.map some := by
  obtain ⟨ts, tokens, spelled⟩ := spells_layOutFrom apart
  refine ⟨ts, scan_of_spells ?_, tokens⟩
  have before : Apart lead.chars (layOutFrom items) := by
    rintro a last b first ⟨same, -⟩
    obtain ⟨next, -, kind⟩ := class_of_head first
    rw [lead.class_of_mem (List.mem_of_mem_getLast? last), kind] at same
    exact next.1.kind_ne_blank same.symm
  rw [layOut, String.toList_ofList]
  exact Spells.append before lead.spells spelled

/-- A product without its operator, among blanks of several kinds, is split into nine tokens. -/
theorem scan_layOut_of_product :
    let empty : Gap := ⟨[], nofun⟩
    let one (c : Char) (blank : isBlank c = true) : Gap := ⟨[c], by simpa using blank⟩
    let items : List (Lexeme × Gap) := [(.numeral ['2'] (by decide), empty),
      (.word "x" (by decide), empty), (.openParen, one '\u3000' (by decide)),
      (.word "y" (by decide), one '\x1c' (by decide)), (.word "zz" (by decide), empty),
      (.numeral ['3', '.'] (by decide), one '\n' (by decide)),
      (.numeral ['0', '.', '5'] (by decide), empty), (.operator .sub, empty),
      (.closeParen, one ' ' (by decide))]
    (items.IsChain fun a b => a.1.Merges b.1 → a.2.chars ≠ []) ∧
      ∃ ts, scan (layOut (one '\t' (by decide)) items) = .ok ts ∧
        items.map (fun item => item.1.token?) = ts.map some := by
  intro empty one items
  have apart : items.IsChain fun a b => a.1.Merges b.1 → a.2.chars ≠ [] := by
    simp [items, empty, one, Lexeme.Merges]
  exact ⟨apart, scan_layOut _ apart⟩

end Equate
