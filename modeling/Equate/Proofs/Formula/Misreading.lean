import Equate.Proofs.Formula.Supply
import Equate.Proofs.Number.Pieces
import Equate.Proofs.Solving.Occurrences

/-!
# Infix texts of folded expressions

Folding and solving leave numbers whose texts are taken to pieces when they are read. Every sign
then asks for one more operand and every exponent brings one, so that the pieces may make up an
expression again, which is another one. `reading_of_reached` tells for the text of every expression
that can be reached whether it is refused, comes back, or is misread.
-/

namespace Equate

open Number

/-! ### Expressions that can be reached -/

/-- The expressions that come of read ones by folding and solving. -/
inductive Reached : Expr Float → Prop where
  | read {text : String} {f : Formula Float} (parsed : Formula.parse text = .ok f) : Reached f.expr
  | simplified {e : Expr Float} (env : Env Float) (before : Reached e) : Reached (e.simplify env)
  | solvedLeft {eq : Equation Float} (env : Env Float) (x : String) (left : Reached eq.sides.lhs)
      (right : Reached eq.sides.rhs) : Reached (eq.solve env x).1.sides.lhs
  | solvedRight {eq : Equation Float} (env : Env Float) (x : String) (left : Reached eq.sides.lhs)
      (right : Reached eq.sides.rhs) : Reached (eq.solve env x).1.sides.rhs

theorem words_of_solve {eq : Equation Float} (left : ∀ x ∈ eq.sides.lhs.names, IsWord x)
    (right : ∀ x ∈ eq.sides.rhs.names, IsWord x) (env : Env Float) (x : String) :
    ∀ y ∈ (eq.solve env x).1.sides.names, IsWord y := by
  intro y member
  have before : y ∈ eq.sides.names :=
    (Sides.conserves_of_trail (eq.solving_trail env x)).1.mem_names member
  exact (List.mem_append.mp before).elim (left y) (right y)

theorem Reached.words {e : Expr Float} (reached : Reached e) : ∀ x ∈ e.names, IsWord x := by
  induction reached with
  | read parsed => exact words_of_parse parsed
  | simplified env before ih =>
    exact fun x member => ih x ((Expr.simplify_folded env _).mem_names member)
  | solvedLeft env x left right ihl ihr =>
    exact fun y member => words_of_solve ihl ihr env x y (List.mem_append_left _ member)
  | solvedRight env x left right ihl ihr =>
    exact fun y member => words_of_solve ihl ihr env x y (List.mem_append_right _ member)

/-! ### The pieces of a text -/

theorem Number.Body.surplus {exponential : Bool} {ts : List (Token Float)}
    (body : Body exponential ts) :
    Rpn.surplus ts = 1 + if exponential then 1 else 0 := by
  cases body <;> rfl

theorem surplus_pieces (x : Float) : Rpn.surplus (pieces x) =
    1 - (if isSigned x then 1 else 0) + if isExponential x then 1 else 0 := by
  obtain ⟨ts, split, body⟩ := pieces_eq x
  have minus : Rpn.surplus (sign x) = -(if isSigned x then 1 else 0) := by
    rw [sign]
    cases isSigned x <;> rfl
  rw [split, Rpn.surplus_append, minus, body.surplus]
  omega

theorem balanced_append {α : Type} {ts : List (Token α)} (flat : ∀ t ∈ ts, t.isParen = false)
    (depth : Nat) (rest : List (Token α)) : balanced depth (ts ++ rest) = balanced depth rest := by
  induction ts with
  | nil => rfl
  | cons t ts ih =>
    have later := ih fun u member => flat u (List.mem_cons_of_mem t member)
    have here := flat t List.mem_cons_self
    cases t with
    | openParen => cases here
    | closeParen => cases here
    | _ => exact later

namespace Expr

theorem surplus_beside (op : Op) (first : Bool) (e : Expr Float) (ts : List (Token Float)) :
    Rpn.surplus (e.beside op first parenthesized ts) = Rpn.surplus ts := by
  unfold beside
  split
  · rw [parenthesized, List.cons_append, Rpn.surplus_cons, Rpn.surplus_append]
    simp [Rpn.share, Rpn.surplus]
  · rfl

/-- Every sign takes one operand away, every exponent adds one. -/
theorem surplus_infixPieces (e : Expr Float) : Rpn.surplus (e.infixPieces pieces) =
    1 - (e.literals.countP isSigned : Int) + (e.literals.countP isExponential : Int) := by
  induction e with
  | lit v =>
    rw [infixPieces, surplus_pieces, literals, List.countP_singleton, List.countP_singleton]
    push_cast
    rfl
  | var x => rfl
  | node o op l r ihl ihr =>
    rw [infixPieces, Rpn.surplus_append, Rpn.surplus_cons, surplus_beside, surplus_beside, ihl, ihr]
    simp only [literals, List.countP_append, Rpn.share]
    push_cast
    omega

theorem balanced_infixPieces (e : Expr Float) (depth : Nat) (rest : List (Token Float)) :
    balanced depth (e.infixPieces pieces ++ rest) = balanced depth rest := by
  have beside_kept {e : Expr Float} {ts : List (Token Float)}
      (kept : ∀ depth rest, balanced depth (ts ++ rest) = balanced depth rest) (op : Op)
      (first : Bool) (depth : Nat) (rest : List (Token Float)) :
      balanced depth (e.beside op first parenthesized ts ++ rest) = balanced depth rest := by
    unfold beside
    split
    · rw [parenthesized, List.append_assoc, List.cons_append, balanced, kept]
      rfl
    · exact kept depth rest
  induction e generalizing depth rest with
  | lit v => exact balanced_append (fun t => isParen_of_mem_pieces) depth rest
  | var x => rfl
  | node o op l r ihl ihr =>
    rw [infixPieces, List.append_assoc, List.cons_append, beside_kept ihl, balanced,
      beside_kept ihr]

/-! ### Numbers that are read as one operand -/

/-- The expression with the infinities and what is no number turned to variables. -/
def reread : Expr Float → Expr Float
  | lit v => if isFinite v then lit v else var (short v)
  | var x => var x
  | node o op l r => node o op l.reread r.reread

theorem pieces_of_single {v : Float} (unsigned : isSigned v = false)
    (simple : isExponential v = false) : (lit v).reread.infixTokens = pieces v := by
  symm
  apply pieces_of_spells
  by_cases finite : isFinite v = true
  · have plain := plain_iff.mpr ⟨finite, unsigned, simple⟩
    rw [reread, if_pos finite]
    exact spells_of_plain plain
  · rw [reread, if_neg finite]
    exact spells_word (word_of_not_finite (Bool.not_eq_true _ ▸ finite) unsigned)

theorem infixTokens_reread {e : Expr Float}
    (single : ∀ v ∈ e.literals, isSigned v = false ∧ isExponential v = false) :
    e.reread.infixTokens = e.infixPieces pieces := by
  have strength (e : Expr Float) : e.reread.strength = e.strength := by
    cases e with
    | lit v =>
      rw [reread]
      split <;> rfl
    | var x => rfl
    | node o op l r => rfl
  have beside_kept (op : Op) (first : Bool) (e : Expr Float) (ts : List (Token Float)) :
      e.reread.beside op first parenthesized ts = e.beside op first parenthesized ts := by
    rw [beside, needsParens, strength]
    rfl
  induction e with
  | lit v =>
    obtain ⟨unsigned, simple⟩ := single v List.mem_cons_self
    exact pieces_of_single unsigned simple
  | var x => rfl
  | node o op l r ihl ihr =>
    simp only [literals, List.forall_mem_append] at single
    rw [reread, infixTokens, infixPieces, beside_kept, beside_kept, ihl single.1, ihr single.2]

end Expr

/-! ### Reading -/

/-- Whether the pieces of the infix text make up an expression: they have as many exponents as
signs, and wherever they are parted, fewer operators have given way than operands have come before,
or none has. -/
def Expr.Resupplied (e : Expr Float) : Prop :=
  e.literals.countP isSigned = e.literals.countP isExponential ∧
    Rpn.Supplies (e.infixPieces pieces)

theorem scan_infixText {e : Expr Float} (words : ∀ x ∈ e.names, IsWord x) :
    scan (e.infixText short) = .ok (e.infixPieces pieces) := by
  apply scan_of_spells
  rw [e.toList_infixText]
  exact e.spells_infixPieces words (fun v _ => solid_short v) fun v _ => spells_pieces v

/-- What a text is read as has a variable for every word in it, also for those of numbers. -/
theorem names_of_misreading {e : Expr Float} {f : Formula Float} (words : ∀ x ∈ e.names, IsWord x)
    (parsed : Formula.parse (e.infixText short) = .ok f)
    (balance : e.literals.countP isSigned = e.literals.countP isExponential)
    (odd : ∃ v ∈ e.literals, ¬ Plain v) : e.names.length < f.expr.names.length := by
  have word : ∃ v ∈ e.literals, isFinite v = false ∨ isExponential v = true := by
    by_contra none_there
    push Not at none_there
    -- without exponents there are no signs, and what is left is plain
    rw [List.countP_eq_zero.mpr fun v member => (none_there v member).2,
      List.countP_eq_zero] at balance
    obtain ⟨v, member, not_plain⟩ := odd
    obtain ⟨finite, simple⟩ := none_there v member
    simp only [ne_eq, Bool.not_eq_false, Bool.not_eq_true] at finite simple
    exact not_plain (plain_iff.mpr ⟨finite, (Bool.not_eq_true _).mp (balance v member), simple⟩)
  obtain ⟨v, member, odd⟩ := word
  have count := length_names_of_parse parsed
  rw [Expr.toList_infixText, Expr.wordCount_infixChars words fun w _ => solid_short w] at count
  have some_word := wordCount_short_pos odd
  have total := List.single_le_sum (fun _ _ => Nat.zero_le _) _
    (List.mem_map_of_mem (f := fun v => wordCount (short v).toList) member)
  omega

/-- What becomes of the infix text of an expression that can be reached. It is misread exactly if
the pieces make up an expression although some number is not plain: then there are more variables.
Where no number has a sign or an exponent, infinities and what is no number turn to variables and
all else comes back. -/
theorem reading_of_reached {e : Expr Float} (reached : Reached e) :
    ∃ text, e.toTree.infixText none = .ok text ∧
      (match (Formula.parse text : Except ExprError (Formula Float)) with
      | .error fault => fault.family = .grammar ∧ ¬ e.Resupplied
      | .ok f => e.Resupplied ∧ ((∀ v ∈ e.literals, Plain v) → f.expr = e.asParsed) ∧
        ((∃ v ∈ e.literals, ¬ Plain v) → e.names.length < f.expr.names.length)) ∧
      ((∀ v ∈ e.literals, isSigned v = false ∧ isExponential v = false) →
        Formula.parse text = .ok ⟨e.reread.asParsed, e.reread.asParsed.toRpn⟩) := by
  have words := reached.words
  have scanned := scan_infixText words
  refine ⟨_, infixText_toTree e, ?_, ?_⟩
  · have closed : balanced 0 (e.infixPieces pieces) = true := by
      have kept := e.balanced_infixPieces 0 []
      rwa [List.append_nil] at kept
    have balance : Rpn.surplus (e.infixPieces pieces) = 1 ↔
        e.literals.countP isSigned = e.literals.countP isExponential := by
      rw [e.surplus_infixPieces]
      omega
    have accepted := parse_of_balanced scanned closed
    rw [balance, and_comm] at accepted
    cases parsed : (Formula.parse (e.infixText short) : Except ExprError (Formula Float)) with
    | error fault =>
      rw [parsed] at accepted
      exact accepted
    | ok f =>
      rw [parsed] at accepted
      refine ⟨accepted, ?_, names_of_misreading words parsed accepted.1⟩
      intro plain
      rw [parse_of_plain words plain] at parsed
      rw [← Except.ok.inj parsed]
  · intro single
    rw [← Expr.infixTokens_reread single] at scanned
    exact parse_of_derives scanned e.reread.derives_sum_infixTokens

/-- The text `1e+16 - x` of `10000000000000000 - x` is refused, as its exponent brings an operand
too many. -/
theorem reading_of_power_minus :
    let e : Expr Float := .node .parsed .sub (.lit 1e16) (.var "x")
    Reached e ∧ e.toTree.infixText none = .ok "1e+16 - x" ∧ ¬ e.Resupplied ∧
      ∃ fault, (Formula.parse "1e+16 - x" : Except ExprError (Formula Float)) = .error fault ∧
        fault.family = .grammar := by
  intro e
  have reached : Reached e := by
    have value : Float.ofScientific 10000000000000000 true 0 = 1e16 :=
      Decimal.eq_of_toNat_bits (by decide +kernel)
    have scanned : scan "10000000000000000 - x" =
        .ok [.literal (Float.ofScientific 10000000000000000 true 0), .operator .parsed .sub,
          .name "x"] := rfl
    rw [value] at scanned
    have minus : Op.sub ∈ Nonterminal.sum.operators := by decide
    exact .read (parse_of_derives scanned
      (.operation minus (Derives.literal 1e16).sum_of_atom (.operand (.operand (.name "x")))))
  have written : e.toTree.infixText none = .ok "1e+16 - x" := by
    rw [infixText_toTree]
    rfl
  obtain ⟨text, same, reading, -⟩ := reading_of_reached reached
  obtain rfl := Except.ok.inj (written.symm.trans same)
  have scanned : scan "1e+16 - x" = .ok [.literal (Float.ofScientific 1 true 0), .name "e",
      .operator .parsed .add, .literal (Float.ofScientific 16 true 0), .operator .parsed .sub,
      .name "x"] := rfl
  have refused : (Formula.parse "1e+16 - x" : Except ExprError (Formula Float)) =
      .error (.unjoinedOperands 2) := by
    rw [parse_of_scan scanned]
    rfl
  rw [refused] at reading
  exact ⟨reached, written, reading.2, _, refused, reading.1⟩

/-- `0 - 10000000000000000` becomes a number that is written `-1e+16`, which is read as
`(1 - e) + 16`. -/
theorem misreading_of_negative_power :
    let f : Formula Float := ⟨.node .parsed .sub (.lit 0) (.lit 1e16),
      [.literal 0, .literal 1e16, .operator .parsed .sub]⟩
    let g : Formula Float :=
      ⟨.node .parsed .add (.node .parsed .sub (.lit 1) (.var "e")) (.lit 16),
        [.literal 1, .name "e", .operator .parsed .sub, .literal 16, .operator .parsed .add]⟩
    let e := f.expr.simplify fun _ => none
    Formula.parse "0 - 10000000000000000" = .ok f ∧ Reached e ∧ e = .lit (-1e16) ∧
      e.toTree.infixText none = .ok "-1e+16" ∧ Formula.parse "-1e+16" = .ok g ∧
      g.expr ≠ e.asParsed := by
  intro f g e
  have parsed : Formula.parse "0 - 10000000000000000" = .ok f := by
    have zero : Float.ofScientific 0 true 0 = 0 := Decimal.eq_of_toNat_bits (by decide +kernel)
    have value : Float.ofScientific 10000000000000000 true 0 = 1e16 :=
      Decimal.eq_of_toNat_bits (by decide +kernel)
    have scanned : scan "0 - 10000000000000000" =
        .ok [.literal (Float.ofScientific 0 true 0), .operator .parsed .sub,
          .literal (Float.ofScientific 10000000000000000 true 0)] := rfl
    rw [zero, value] at scanned
    have minus : Op.sub ∈ Nonterminal.sum.operators := by decide
    exact parse_of_derives scanned
      (.operation minus (Derives.literal 0).sum_of_atom (.operand (.operand (.literal 1e16))))
  have folded : e = .lit (-1e16) := by
    have value : Arithmetic.apply .sub (0 : Float) 1e16 = -1e16 :=
      Decimal.eq_of_toNat_bits (by decide +kernel)
    have whole : e = .lit (Arithmetic.apply .sub (0 : Float) 1e16) := rfl
    rw [whole, value]
  have written : e.toTree.infixText none = .ok "-1e+16" := by
    rw [folded, infixText_toTree]
    rfl
  have misread : Formula.parse "-1e+16" = .ok g := by
    have one : Float.ofScientific 1 true 0 = 1 := Decimal.eq_of_toNat_bits (by decide +kernel)
    have sixteen : Float.ofScientific 16 true 0 = 16 :=
      Decimal.eq_of_toNat_bits (by decide +kernel)
    have scanned : scan "-1e+16" = .ok [.operator .parsed .sub,
        .literal (Float.ofScientific 1 true 0), .name "e", .operator .parsed .add,
        .literal (Float.ofScientific 16 true 0)] := rfl
    rw [one, sixteen] at scanned
    rw [parse_of_scan scanned]
    rfl
  refine ⟨parsed, .simplified _ (.read parsed), folded, written, misread, ?_⟩
  rw [folded]
  exact nofun

end Equate
