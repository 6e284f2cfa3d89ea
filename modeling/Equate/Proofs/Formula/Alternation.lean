import Equate.Proofs.Formula.Grammar

/-!
# Texts that are accepted

What the grammar derives are the lists with matching parentheses in which operands and operators
alternate (`derives_iff`). Reading checks the parentheses (`isOk_order`) and counts operands, but
not whether they alternate with operators: `parse_accepts` tells what it accepts besides.
-/

namespace Equate

variable {α : Type}

/-! ### Parentheses -/

/-- Whether every parenthesis of the tokens has its counterpart when `depth` are open before. -/
def balanced : (depth : Nat) → List (Token α) → Bool
  | depth, [] => depth == 0
  | depth, .openParen :: ts => balanced (depth + 1) ts
  | 0, .closeParen :: _ => false
  | depth + 1, .closeParen :: ts => balanced depth ts
  | depth, .literal _ :: ts => balanced depth ts
  | depth, .name _ :: ts => balanced depth ts
  | depth, .operator .. :: ts => balanced depth ts

namespace Rpn

def openCount (pending : List (Token α)) : Nat := pending.countP fun t => !notOpen t

theorem openCount_open (pending : List (Token α)) :
    openCount (.openParen :: pending) = openCount pending + 1 :=
  List.countP_cons_of_pos rfl

theorem openCount_cons {t : Token α} (other : notOpen t = true) (pending : List (Token α)) :
    openCount (t :: pending) = openCount pending :=
  List.countP_cons_of_neg (by simp [other])

theorem all_notOpen (pending : List (Token α)) :
    pending.all notOpen = (openCount pending == 0) := by
  induction pending with
  | nil => rfl
  | cons t below ih =>
    cases t with
    | openParen => rw [openCount_open]; rfl
    | _ => rw [openCount_cons rfl, ← ih]; rfl

theorem notOpen_of_yields {t p : Token α} (gives : yields t p = true) : notOpen p = true := by
  cases p with
  | openParen => exact absurd rfl (yields_iff.mp gives).1
  | _ => rfl

theorem openCount_dropWhile_yields (t : Token α) (pending : List (Token α)) :
    openCount (pending.dropWhile (yields t)) = openCount pending := by
  induction pending with
  | nil => rfl
  | cons p below ih =>
    by_cases gives : yields t p = true
    · rw [List.dropWhile_cons_of_pos gives, openCount_cons (notOpen_of_yields gives), ih]
    · rw [List.dropWhile_cons_of_neg gives]

theorem dropWhile_notOpen_cases (pending : List (Token α)) :
    (pending.dropWhile notOpen = [] ∧ openCount pending = 0) ∨
      ∃ outer, pending.dropWhile notOpen = .openParen :: outer ∧
        openCount pending = openCount outer + 1 := by
  induction pending with
  | nil => exact Or.inl ⟨rfl, rfl⟩
  | cons t below ih =>
    cases t with
    | openParen => exact Or.inr ⟨below, rfl, openCount_open below⟩
    | _ => rw [openCount_cons rfl, List.dropWhile_cons_of_pos rfl]; exact ih

theorem isOk_map {ε β γ : Type} (f : β → γ) (x : Except ε β) : (f <$> x).isOk = x.isOk := by
  cases x <;> rfl

theorem isOk_orderFrom (pending ts : List (Token α)) :
    (orderFrom pending ts).isOk = balanced (openCount pending) ts := by
  induction ts generalizing pending with
  | nil =>
    rw [orderFrom, all_notOpen, balanced]
    cases openCount pending == 0 <;> rfl
  | cons t ts ih =>
    cases t with
    | literal v => rw [orderFrom_literal, isOk_map, ih]; rfl
    | name x => rw [orderFrom_name, isOk_map, ih]; rfl
    | openParen => rw [orderFrom_open, ih, openCount_open]; rfl
    | closeParen =>
      rw [orderFrom_close]
      rcases dropWhile_notOpen_cases pending with ⟨unopened, count⟩ | ⟨outer, opened, count⟩
      · rw [unopened, count]
        rfl
      · simp only [opened, count, isOk_map, ih]
        rfl
    | operator o op =>
      rw [orderFrom_operator, isOk_map, ih, openCount_cons rfl, openCount_dropWhile_yields]
      rfl

theorem isOk_order (ts : List (Token α)) : (order ts).isOk = balanced 0 ts := isOk_orderFrom [] ts

theorem map_eq_error {ε β γ : Type} {f : β → γ} {x : Except ε β} {fault : ε}
    (failed : f <$> x = .error fault) : x = .error fault := by
  cases x with
  | ok b => cases failed
  | error e => exact congrArg Except.error (Except.error.inj failed)

theorem orderFrom_error_family {pending ts : List (Token α)} {fault : ExprError}
    (failed : orderFrom pending ts = .error fault) : fault.family = .parentheses := by
  induction ts generalizing pending with
  | nil =>
    rw [orderFrom] at failed
    split at failed
    · cases failed
    · obtain rfl := Except.error.inj failed
      rfl
  | cons t ts ih =>
    cases t with
    | literal v => exact ih (map_eq_error failed)
    | name x => exact ih (map_eq_error failed)
    | openParen => exact ih failed
    | closeParen =>
      rw [orderFrom_close] at failed
      split at failed
      · obtain rfl := Except.error.inj failed
        rfl
      · exact ih (map_eq_error failed)
    | operator o op => exact ih (map_eq_error failed)

end Rpn

/-! ### Alternation -/

/-- Whether operands and operators alternate in the tokens. `due` tells whether an operand or a
group in parentheses is due, or else an operator or the end of a group. -/
def alternates : (due : Bool) → List (Token α) → Bool
  | true, .literal _ :: ts => alternates false ts
  | true, .name _ :: ts => alternates false ts
  | true, .openParen :: ts => alternates true ts
  | false, .operator .parsed _ :: ts => alternates true ts
  | false, .closeParen :: ts => alternates false ts
  | false, [] => true
  | _, _ => false

theorem alternates_of_derives {n : Nonterminal} {ts : List (Token α)} {e : Expr α}
    (derived : Derives n ts e) (rest : List (Token α)) :
    alternates true (ts ++ rest) = alternates false rest := by
  induction derived generalizing rest with
  | operation listed left right ihl ihr =>
    rw [List.append_assoc, List.cons_append, ihl, alternates, ihr]
  | operand inner ih => exact ih rest
  | literal v => rfl
  | name x => rfl
  | parens inner ih =>
    rw [List.append_assoc, List.cons_append, List.singleton_append, alternates, ih, alternates]

/-- A derivation goes on with an operator that binds at least as strongly as its level: the last
operand goes to that operator. -/
theorem Derives.extend {n : Nonterminal} {ts us : List (Token α)} {e a : Expr α} {op : Op}
    (derived : Derives n ts e) (tight : n.strength ≤ op.precedence) (atom : Derives .atom us a) :
    ∃ e', Derives n (ts ++ .operator .parsed op :: us) e' := by
  have single {n : Nonterminal} : Derives n.operand us a := by
    cases n with
    | sum => exact .operand (.operand atom)
    | product => exact .operand atom
    | power => exact atom
    | atom => exact atom
  -- the operator joins what is there if it is of this level, else it belongs to the last operand
  induction derived with
  | @operation n op' ts ts' l r listed left right ihl ihr =>
    rcases Nat.eq_or_lt_of_le tight with same | less
    · exact ⟨_, .operation (Nonterminal.mem_of_precedence same.symm) (.operation listed left right)
        single⟩
    · have next : n.operand.strength ≤ op.precedence := by
        cases n <;> first | exact less | cases op <;> contradiction
      obtain ⟨r', right'⟩ := ihr next
      rw [List.append_assoc]
      exact ⟨_, .operation listed left right'⟩
  | @operand n ts e inner ih =>
    rcases Nat.eq_or_lt_of_le tight with same | less
    · exact ⟨_, .operation (Nonterminal.mem_of_precedence same.symm) (.operand inner) single⟩
    · have next : n.operand.strength ≤ op.precedence := by
        cases n <;> first | exact less | cases op <;> contradiction
      obtain ⟨e', inner'⟩ := ih next
      exact ⟨e', .operand inner'⟩
  | literal v => cases op <;> contradiction
  | name x => cases op <;> contradiction
  | parens inner ih => cases op <;> contradiction

/-! ### Alternating tokens are derived -/

/-- Tokens of a group that is not complete: where an operand is due they are none, or end in an
operator after a sum; else they are a sum. -/
def Unfinished : (due : Bool) → List (Token α) → Prop
  | true, ts => ts = [] ∨ ∃ us op e, ts = us ++ [.operator .parsed op] ∧ Derives .sum us e
  | false, ts => ∃ e, Derives .sum ts e

theorem Unfinished.complete {ts us : List (Token α)} {a : Expr α} (open_ : Unfinished true ts)
    (atom : Derives .atom us a) : Unfinished false (ts ++ us) := by
  rcases open_ with rfl | ⟨before, op, e, rfl, derived⟩
  · exact ⟨a, atom.sum_of_atom⟩
  · rw [List.append_assoc]
    exact derived.extend (by cases op <;> decide) atom

/-- Groups that are open, the innermost first, and the tokens of the one within them all. -/
def nested (ts : List (Token α)) : List (List (Token α)) → List (Token α)
  | [] => ts
  | outer :: groups => nested (outer ++ .openParen :: ts) groups

/-- The tokens read so far are open groups around a group that is not complete. If the rest keeps
alternating and closes all of them, the whole is derived. -/
theorem derives_of_alternates {due : Bool} {ts rest : List (Token α)}
    {groups : List (List (Token α))} (outer : ∀ g ∈ groups, Unfinished true g)
    (inner : Unfinished due ts) (alternate : alternates due rest = true)
    (closed : balanced groups.length rest = true) :
    ∃ e, Derives .sum (nested (ts ++ rest) groups) e := by
  induction rest generalizing due ts groups with
  | nil =>
    cases due with
    | true => cases alternate
    | false =>
      have none : groups = [] := by simpa [balanced] using closed
      subst none
      rw [List.append_nil]
      exact inner
  | cons t rest ih =>
    have shift : ts ++ t :: rest = (ts ++ [t]) ++ rest := by simp
    match due, t, alternate with
    | true, .literal v, alternate =>
      rw [shift]
      exact ih outer (inner.complete (.literal v)) alternate closed
    | true, .name x, alternate =>
      rw [shift]
      exact ih outer (inner.complete (.name x)) alternate closed
    | true, .openParen, alternate =>
      have outer' : ∀ g ∈ ts :: groups, Unfinished true g := by
        rintro g (⟨⟩ | ⟨_, member⟩)
        · exact inner
        · exact outer g member
      have started : Unfinished true ([] : List (Token α)) := Or.inl rfl
      exact ih outer' started alternate closed
    | false, .operator .parsed op, alternate =>
      obtain ⟨e, derived⟩ := inner
      have joined : Unfinished true (ts ++ [.operator .parsed op]) :=
        Or.inr ⟨ts, op, e, rfl, derived⟩
      rw [shift]
      exact ih outer joined alternate closed
    | false, .closeParen, alternate =>
      obtain ⟨e, derived⟩ := inner
      -- the group that ends here is an operand of the one around it
      match groups, outer, closed with
      | before :: groups, outer, closed =>
        have whole := (outer before List.mem_cons_self).complete (.parens derived)
        have same : nested (ts ++ .closeParen :: rest) (before :: groups) =
            nested ((before ++ (.openParen :: ts ++ [.closeParen])) ++ rest) groups := by
          simp [nested]
        rw [same]
        exact ih (fun g member => outer g (List.mem_cons_of_mem _ member)) whole alternate closed

theorem derives_iff {ts : List (Token α)} :
    (∃ e, Derives .sum ts e) ↔ alternates true ts = true ∧ balanced 0 ts = true := by
  constructor
  · rintro ⟨e, derived⟩
    have alternate := alternates_of_derives derived []
    rw [List.append_nil] at alternate
    refine ⟨alternate, ?_⟩
    rw [← Rpn.isOk_order, order_of_derives derived]
    rfl
  · rintro ⟨alternate, closed⟩
    have started : Unfinished true ([] : List (Token α)) := Or.inl rfl
    have outer : ∀ g ∈ ([] : List (List (Token α))), Unfinished true g := nofun
    exact derives_of_alternates outer started alternate closed

/-! ### What reading accepts -/

theorem parse_of_scan [OfScientific α] {text : String} {ts : List (Token α)}
    (scanned : scan text = .ok ts) :
    Formula.parse text = Rpn.order ts >>= Formula.ofTokens := by
  rw [Formula.parse, Formula.postfixTokens, scanned]
  rfl

/-- What reading makes of tokens. Those that it refuses are not derived, for a fault of grammar or
of parentheses. Those that it accepts are derived exactly if operands and operators alternate; the
others can only be put in an order that describes an expression. -/
theorem parse_accepts [OfScientific α] {text : String} {ts : List (Token α)}
    (scanned : scan text = .ok ts) :
    match (Formula.parse text : Except ExprError (Formula α)) with
    | .ok f =>
      Rpn.order ts = .ok f.expr.toRpn ∧
        (alternates true ts = true → Derives .sum ts f.expr) ∧
        (alternates true ts = false → ∀ e, ¬ Derives .sum ts e)
    | .error fault =>
      (∀ e, ¬ Derives .sum ts e) ∧ (fault.family = .grammar ∨ fault.family = .parentheses) := by
  rw [parse_of_scan scanned]
  cases ordered : Rpn.order ts with
  | error fault =>
    refine ⟨?_, Or.inr (Rpn.orderFrom_error_family ordered)⟩
    intro e derived
    rw [order_of_derives derived] at ordered
    cases ordered
  | ok tokens =>
    cases built : Expr.ofRpn tokens with
    | error fault =>
      simp only [Formula.ofTokens, built, bind, Except.bind]
      refine ⟨?_, Or.inl (Expr.build_error_family built)⟩
      intro e derived
      rw [order_of_derives derived] at ordered
      rw [← Except.ok.inj ordered, Expr.ofRpn_toRpn] at built
      cases built
    | ok e =>
      have listed := Expr.ofRpn_eq_ok_iff.mp built
      simp only [Formula.ofTokens, built, bind, Except.bind, pure, Except.pure]
      refine ⟨by rw [listed], ?_, ?_⟩
      · intro alternate
        have closed : balanced 0 ts = true := by
          rw [← Rpn.isOk_order, ordered]
          rfl
        obtain ⟨e', derived⟩ := derives_iff.mpr ⟨alternate, closed⟩
        have same := order_of_derives derived
        rw [ordered, listed] at same
        rwa [Expr.toRpn_injective (Except.ok.inj same)]
      · intro unordered e' derived
        have alternate := (derives_iff.mp ⟨e', derived⟩).1
        rw [unordered] at alternate
        cases alternate

theorem parse_accepts_infix :
    let ts : List (Token Float) := [.openParen, .name "x", .operator .parsed .sub, .name "y",
      .closeParen, .operator .parsed .pow, .name "z"]
    let e : Expr Float := .node .parsed .pow (.node .parsed .sub (.var "x") (.var "y")) (.var "z")
    scan "(x - y) ^ z" = .ok ts ∧
      (Formula.parse "(x - y) ^ z" : Except ExprError (Formula Float)) = .ok ⟨e, e.toRpn⟩ ∧
      Derives .sum ts e := by
  intro ts e
  have scanned : scan "(x - y) ^ z" = .ok ts := rfl
  have parsed : (Formula.parse "(x - y) ^ z" : Except ExprError (Formula Float)) =
      .ok ⟨e, e.toRpn⟩ := by
    rw [parse_of_scan scanned]
    rfl
  have accepted := parse_accepts scanned
  rw [parsed] at accepted
  exact ⟨scanned, parsed, accepted.2.1 rfl⟩

/-- `x y +` is accepted although its operator comes after both operands. -/
theorem parse_accepts_postfix :
    let ts : List (Token Float) := [.name "x", .name "y", .operator .parsed .add]
    let e : Expr Float := .node .parsed .add (.var "x") (.var "y")
    scan "x y +" = .ok ts ∧ (∀ e', ¬ Derives .sum ts e') ∧
      (Formula.parse "x y +" : Except ExprError (Formula Float)) = .ok ⟨e, e.toRpn⟩ := by
  intro ts e
  have scanned : scan "x y +" = .ok ts := rfl
  refine ⟨scanned, ?_, ?_⟩
  · intro e' derived
    have alternate := (derives_iff.mp ⟨e', derived⟩).1
    cases alternate
  · rw [parse_of_scan scanned]
    rfl

end Equate
