import Equate.Proofs.Formula.Layout
import Equate.Proofs.Formula.Order
import Equate.Proofs.Number.PlainText
import Equate.Summary

/-!
# Infix texts read again

An expression of words and plain numbers comes back from its infix text, its operators then being
read ones (`parse_infixText`). An expression that was read itself comes back exactly if its literals
are plain (`reparse_iff`): a literal that is written with an exponent or as an infinity puts a word
into the text, and so the text cannot have the variables of the expression.
-/

namespace Equate

variable {α : Type}

namespace Expr

theorem not_isParen_of_mem {e : Expr α} {t : Token α} (member : t ∈ e.toRpn) :
    t.isParen = false := by
  induction e with
  | lit v => rw [List.mem_singleton.mp member]; rfl
  | var x => rw [List.mem_singleton.mp member]; rfl
  | node o op l r ihl ihr =>
    rw [toRpn_node, List.mem_append, List.mem_append, List.mem_singleton] at member
    rcases member with (left | right) | rfl
    · exact ihl left
    · exact ihr right
    · rfl

theorem mem_names {e : Expr α} {x : String} : x ∈ e.names ↔ .name x ∈ e.toRpn := by
  rw [names, Rpn.names, List.mem_filterMap]
  constructor
  · rintro ⟨t, member, shown⟩
    cases t <;> cases shown
    exact member
  · intro member
    exact ⟨_, member, rfl⟩

theorem mem_literals {e : Expr α} {v : α} : v ∈ e.literals ↔ .literal v ∈ e.toRpn := by
  induction e with
  | lit w => simp [literals]
  | var x => simp [literals]
  | node o op l r ihl ihr => simp [literals, ihl, ihr]

theorem exists_of_mem_origins {e : Expr α} {o : Origin} (member : o ∈ e.origins) :
    ∃ op, .operator o op ∈ e.toRpn := by
  induction e with
  | lit w => cases member
  | var x => cases member
  | node o' op l r ihl ihr =>
    simp only [origins, List.cons_append, List.mem_cons, List.mem_append] at member
    rcases member with rfl | left | right
    · exact ⟨op, by simp⟩
    · obtain ⟨op', inside⟩ := ihl left
      exact ⟨op', by simp [inside]⟩
    · obtain ⟨op', inside⟩ := ihr right
      exact ⟨op', by simp [inside]⟩

theorem length_names_of_beq [BEq α] {e e' : Expr α} (equal : (e == e') = true) :
    e.names.length = e'.names.length := by
  change e.beq e' = true at equal
  induction e generalizing e' with
  | lit v => cases e' <;> first | rfl | cases equal
  | var x => cases e' <;> first | rfl | cases equal
  | node o op l r ihl ihr =>
    cases e' with
    | node o' op' l' r' =>
      simp only [beq, Bool.and_eq_true] at equal
      rw [names_node, names_node, List.length_append, List.length_append, ihl equal.1.2,
        ihr equal.2]
    | _ => cases equal

theorem beq_self_of_literals [BEq α] {e : Expr α} (reflexive : ∀ v ∈ e.literals, (v == v) = true) :
    (e == e) = true := by
  change e.beq e = true
  induction e with
  | lit v => exact reflexive v List.mem_cons_self
  | var x => simp [beq]
  | node o op l r ihl ihr =>
    simp only [literals, List.forall_mem_append] at reflexive
    simp [beq, ihl reflexive.1, ihr reflexive.2]

end Expr

/-! ### Expressions that were read -/

theorem tokens_of_parse [OfScientific α] {text : String} {f : Formula α}
    (parsed : Formula.parse text = .ok f) :
    ∃ ts, scan text = .ok ts ∧ Rpn.order ts = .ok f.expr.toRpn := by
  cases scanned : scan (α := α) text with
  | error fault =>
    rw [Formula.parse, Formula.postfixTokens, scanned] at parsed
    cases parsed
  | ok ts =>
    rw [parse_of_scan scanned] at parsed
    cases ordered : Rpn.order ts with
    | error fault =>
      rw [ordered] at parsed
      cases parsed
    | ok us =>
      cases built : Expr.ofRpn us with
      | error fault =>
        simp only [ordered, Formula.ofTokens, built, bind, Except.bind] at parsed
        cases parsed
      | ok e =>
        simp only [ordered, Formula.ofTokens, built, bind, Except.bind, pure, Except.pure] at parsed
        obtain rfl := Except.ok.inj parsed
        exact ⟨ts, rfl, by rw [ordered, Expr.ofRpn_eq_ok_iff.mp built]⟩

theorem parse_of_derives [OfScientific α] {text : String} {ts : List (Token α)} {e : Expr α}
    (scanned : scan text = .ok ts) (derived : Derives .sum ts e) :
    Formula.parse text = .ok ⟨e, e.toRpn⟩ := by
  rw [parse_of_scan scanned, order_of_derives derived]
  simp only [Formula.ofTokens, Expr.ofRpn_toRpn, bind, Except.bind, pure, Except.pure]

theorem readable_of_parse [OfScientific α] {text : String} {f : Formula α}
    (parsed : Formula.parse text = .ok f) : ∀ t ∈ f.expr.toRpn, t.Readable := by
  obtain ⟨ts, scanned, ordered⟩ := tokens_of_parse parsed
  intro t member
  have kept : t ∈ Rpn.bare f.expr.toRpn := by
    simp [Rpn.bare, member, Expr.not_isParen_of_mem member]
  have written := (Rpn.perm_of_order ordered).mem_iff.mp kept
  exact readable_of_scan scanned t (List.mem_filter.mp written).1

theorem length_names_of_parse [OfScientific α] {text : String} {f : Formula α}
    (parsed : Formula.parse text = .ok f) : f.expr.names.length = wordCount text.toList := by
  obtain ⟨ts, scanned, ordered⟩ := tokens_of_parse parsed
  rw [← length_names_scan scanned, Expr.names, ← Rpn.names_bare, ← Rpn.names_bare ts]
  exact ((Rpn.perm_of_order ordered).filterMap _).length_eq

section Read

variable [OfScientific α] {text : String} {f : Formula α} (parsed : Formula.parse text = .ok f)
include parsed

theorem words_of_parse : ∀ x ∈ f.expr.names, IsWord x := fun _ member =>
  readable_of_parse parsed _ (Expr.mem_names.mp member)

theorem literals_of_parse : ∀ v ∈ f.expr.literals, ∃ cs, readPlain? cs = some v := fun _ member =>
  readable_of_parse parsed _ (Expr.mem_literals.mp member)

theorem origins_of_parse : ∀ o ∈ f.expr.origins, o = .parsed := by
  intro o member
  obtain ⟨op, inside⟩ := Expr.exists_of_mem_origins member
  exact readable_of_parse parsed _ inside

end Read

/-! ### Reading the text of an expression -/

theorem infixText_toTree (e : Expr Float) :
    e.toTree.infixText none = .ok (e.infixText Number.short) := by
  rw [Tree.infixText, e.toRpn_toTree]
  rfl

theorem solid_of_plain {v : Float} (plain : Number.Plain v) : Solid (Number.short v).toList := by
  obtain ⟨c, cs, split, digits, -⟩ := Number.short_of_plain plain
  rw [split]
  refine solid_of_all (List.cons_ne_nil c cs) fun d member => ?_
  rw [digits d member]
  decide

theorem spells_of_plain {v : Float} (plain : Number.Plain v) :
    Spells (Number.short v).toList [.literal v] := by
  obtain ⟨c, cs, split, digits, first, read⟩ := Number.short_of_plain plain
  rw [split]
  exact spells_number digits first read

theorem parse_of_plain {e : Expr Float} (words : ∀ x ∈ e.names, IsWord x)
    (plain : ∀ v ∈ e.literals, Number.Plain v) :
    Formula.parse (e.infixText Number.short) = .ok ⟨e.asParsed, e.asParsed.toRpn⟩ := by
  have spelled : Spells (e.infixText Number.short).toList e.infixTokens := by
    rw [e.toList_infixText]
    exact e.spells_infixChars words (fun v member => solid_of_plain (plain v member))
      fun v member => spells_of_plain (plain v member)
  exact parse_of_derives (scan_of_spells spelled) e.derives_sum_infixTokens

theorem beq_self_of_plain {e : Expr Float} (plain : ∀ v ∈ e.literals, Number.Plain v) :
    (e == e) = true :=
  Expr.beq_self_of_literals fun v member => (plain v member).beq_self

/-- Infix text is read as the expression that it was made of, with read operators in place of those
that were introduced. -/
theorem parse_infixText {e : Expr Float} (words : ∀ x ∈ e.names, IsWord x)
    (plain : ∀ v ∈ e.literals, Number.Plain v) :
    ∃ text, e.toTree.infixText none = .ok text ∧
      Formula.parse text = .ok ⟨e.asParsed, e.asParsed.toRpn⟩ ∧
      ((∀ o ∈ e.origins, o = .parsed) → e.asParsed = e ∧ (e.asParsed == e) = true) := by
  refine ⟨_, infixText_toTree e, parse_of_plain words plain, ?_⟩
  intro parsed
  rw [Expr.asParsed_eq_self parsed]
  exact ⟨rfl, beq_self_of_plain plain⟩

theorem plain_half : Number.Plain 0.5 := by
  have double : Decimal.Double.ofFloat 0.5 = .finite false (2 ^ 52) (-53) := rfl
  rw [Number.Plain, double]
  norm_num

/-- `0.5 - (x - y)` comes back with read operators, whether the outer one was read or introduced. -/
theorem parse_infixText_of_difference :
    let e (o : Origin) : Expr Float :=
      .node o .sub (.lit 0.5) (.node .parsed .sub (.var "x") (.var "y"))
    let f : Formula Float := ⟨e .parsed, (e .parsed).toRpn⟩
    (∀ x ∈ (e .introduced).names, IsWord x) ∧ (∀ v ∈ (e .introduced).literals, Number.Plain v) ∧
      (e .introduced).toTree.infixText none = .ok "0.5 - (x - y)" ∧
      Formula.parse "0.5 - (x - y)" = .ok f ∧
      (∀ o ∈ (e .parsed).origins, o = .parsed) ∧ (f.expr == e .parsed) = true := by
  intro e f
  have words (o : Origin) : ∀ x ∈ (e o).names, IsWord x := by
    intro x member
    have either : x = "x" ∨ x = "y" := by simpa [e] using member
    rcases either with rfl | rfl <;> decide
  have plain (o : Origin) : ∀ v ∈ (e o).literals, Number.Plain v := by
    intro v member
    have half : v = 0.5 := by simpa [e, Expr.literals] using member
    rw [half]
    exact plain_half
  have written : (e .introduced).toTree.infixText none = .ok "0.5 - (x - y)" := by
    rw [infixText_toTree]
    rfl
  have parsed : ∀ o ∈ (e .parsed).origins, o = .parsed := by simp [e, Expr.origins]
  obtain ⟨text, same, read, -⟩ := parse_infixText (words .introduced) (plain .introduced)
  obtain rfl := Except.ok.inj (written.symm.trans same)
  obtain ⟨-, -, -, equal⟩ := parse_infixText (words .parsed) (plain .parsed)
  exact ⟨words _, plain _, written, read, parsed, (equal parsed).2⟩

/-! ### Reading an expression twice -/

theorem unsigned_of_read {cs : List Char} {v : Float} (read : readPlain? cs = some v) :
    Decimal.Double.ofFloat v = .infinite false ∨
      ∃ m e, Decimal.Double.ofFloat v = .finite false m e := by
  unfold readPlain? at read
  dsimp only at read
  split at read
  · cases read
  · obtain rfl := Option.some.inj read
    exact Decimal.ofScientific_unsigned _ _

theorem solid_of_read {cs : List Char} {v : Float} (read : readPlain? cs = some v) :
    Solid (Number.short v).toList := by
  by_cases plain : Number.Plain v
  · exact solid_of_plain plain
  · obtain ⟨⟨c, member, -⟩, visible⟩ := Number.short_of_not_plain (unsigned_of_read read) plain
    exact solid_of_all (List.ne_nil_of_mem member) visible

/-- An expression that was read and written is read as an equal one exactly if all its literals are
plain. -/
theorem reparse_iff {text : String} {f : Formula Float} (parsed : Formula.parse text = .ok f) :
    (∃ text' g, f.expr.toTree.infixText none = .ok text' ∧ Formula.parse text' = .ok g ∧
      (g.expr == f.expr) = true) ↔ ∀ v ∈ f.expr.literals, Number.Plain v := by
  have words := words_of_parse parsed
  constructor
  · rintro ⟨text', g, written, reparsed, equal⟩ v member
    rw [infixText_toTree] at written
    obtain rfl := Except.ok.inj written
    have solid (w : Float) (inside : w ∈ f.expr.literals) : Solid (Number.short w).toList := by
      obtain ⟨cs, read⟩ := literals_of_parse parsed w inside
      exact solid_of_read read
    -- the text has as many words as the expression has variables, so none is left for literals
    have count := length_names_of_parse reparsed
    rw [Expr.length_names_of_beq equal, Expr.toList_infixText,
      Expr.wordCount_infixChars words solid] at count
    have none_left : (f.expr.literals.map fun v => wordCount (Number.short v).toList).sum = 0 := by
      omega
    by_contra not_plain
    obtain ⟨cs, read⟩ := literals_of_parse parsed v member
    obtain ⟨⟨c, inside, letter⟩, -⟩ := Number.short_of_not_plain (unsigned_of_read read) not_plain
    have zero := List.sum_eq_zero_iff_forall_eq_nat.mp none_left _ (List.mem_map_of_mem member)
    exact absurd zero (Nat.ne_of_gt (wordCount_pos letter inside))
  · intro plain
    have same := Expr.asParsed_eq_self (origins_of_parse parsed)
    have reparsed := parse_of_plain words plain
    rw [same] at reparsed
    exact ⟨_, _, infixText_toTree f.expr, reparsed, beq_self_of_plain plain⟩

theorem reparse_iff_of_half_minus :
    let f : Formula Float :=
      ⟨.node .parsed .sub (.lit 0.5) (.var "x"),
        [.literal 0.5, .name "x", .operator .parsed .sub]⟩
    Formula.parse "00.50-x" = .ok f ∧
      ((∃ text' g, f.expr.toTree.infixText none = .ok text' ∧ Formula.parse text' = .ok g ∧
        (g.expr == f.expr) = true) ↔ ∀ v ∈ f.expr.literals, Number.Plain v) ∧
      ∀ v ∈ f.expr.literals, Number.Plain v := by
  intro f
  have parsed : Formula.parse "00.50-x" = .ok f := by
    have value : Float.ofScientific 50 true 2 = 0.5 := Decimal.eq_of_toNat_bits (by decide +kernel)
    have scanned : scan "00.50-x" =
        .ok [.literal (Float.ofScientific 50 true 2), .operator .parsed .sub, .name "x"] := rfl
    rw [value] at scanned
    have minus : Op.sub ∈ Nonterminal.sum.operators := by decide
    exact parse_of_derives scanned
      (.operation minus (Derives.literal 0.5).sum_of_atom (.operand (.operand (.name "x"))))
  have plain : ∀ v ∈ f.expr.literals, Number.Plain v := by
    intro v member
    have half : v = 0.5 := by simpa [f, Expr.literals] using member
    rw [half]
    exact plain_half
  exact ⟨parsed, reparse_iff parsed, plain⟩

/-- `10000000000000000` is written `1e+16`, which is read as `1`, `e`, `+` and `16`. -/
theorem reparse_fails_at_exponent :
    let f : Formula Float := ⟨.lit 1e16, [.literal 1e16]⟩
    Formula.parse "10000000000000000" = .ok f ∧ f.expr.toTree.infixText none = .ok "1e+16" ∧
      (Formula.parse "1e+16" : Except ExprError (Formula Float)) =
        .error (.unjoinedOperands 2) := by
  intro f
  refine ⟨?_, ?_, ?_⟩
  · have value : Float.ofScientific 10000000000000000 true 0 = 1e16 :=
      Decimal.eq_of_toNat_bits (by decide +kernel)
    have scanned : scan "10000000000000000" =
        .ok [.literal (Float.ofScientific 10000000000000000 true 0)] := rfl
    rw [value] at scanned
    exact parse_of_derives scanned (Derives.literal 1e16).sum_of_atom
  · rw [infixText_toTree]
    rfl
  · have scanned : scan "1e+16" = .ok [.literal (Float.ofScientific 1 true 0), .name "e",
        .operator .parsed .add, .literal (Float.ofScientific 16 true 0)] := rfl
    rw [parse_of_scan scanned]
    rfl

end Equate
