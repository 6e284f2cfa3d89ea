import Equate.Proofs.Formula.Alternation

/-!
# Putting tokens in order

Tokens are put into postfix order with a stack on which operators and open parentheses wait. Any
tokens can be put in order whose parentheses match, and otherwise the fault tells which ones do not:
`order_outcome`. No token gets lost, none comes twice, and operands do not overtake each other.
-/

namespace Equate.Rpn

variable {α : Type}

/-! ### What comes out -/

theorem map_eq_ok {ε β γ : Type} {f : β → γ} {x : Except ε β} {c : γ} (done : f <$> x = .ok c) :
    ∃ b, x = .ok b ∧ c = f b := by
  cases x with
  | ok b => exact ⟨b, rfl, (Except.ok.inj done).symm⟩
  | error e => cases done

def bare (ts : List (Token α)) : List (Token α) := ts.filter (!·.isParen)

theorem bare_append (ts us : List (Token α)) : bare (ts ++ us) = bare ts ++ bare us :=
  List.filter_append _ _

theorem bare_middle (t : Token α) (ts us : List (Token α)) :
    (bare (t :: (ts ++ us))).Perm (bare (ts ++ t :: us)) :=
  List.Perm.filter _ List.perm_middle.symm

/-- What a token does where others are pending: the tokens that it puts out, and those that are
pending after it. -/
inductive Puts (pending : List (Token α)) : Token α → List (Token α) → List (Token α) → Prop
  | operand {t : Token α} (operand : t.isOperand = true) : Puts pending t [t] pending
  | opened : Puts pending .openParen [] (.openParen :: pending)
  | closed {gone outer : List (Token α)} (split : pending = gone ++ .openParen :: outer)
      (others : ∀ s ∈ gone, notOpen s = true) : Puts pending .closeParen gone outer
  | operator {o : Origin} {op : Op} {gone left : List (Token α)} (split : pending = gone ++ left)
      (yielded : ∀ s ∈ gone, yields (.operator o op) s = true)
      (kept : ∀ s ∈ left.head?, ¬ yields (.operator o op) s = true) :
      Puts pending (.operator o op) gone (.operator o op :: left)

theorem puts_of_orderFrom {pending ts us : List (Token α)} {t : Token α}
    (ordered : orderFrom pending (t :: ts) = .ok us) :
    ∃ out pending' vs, Puts pending t out pending' ∧ orderFrom pending' ts = .ok vs ∧
      us = out ++ vs := by
  cases t with
  | literal v =>
    obtain ⟨vs, rest, rfl⟩ := map_eq_ok ordered
    exact ⟨[.literal v], pending, vs, .operand rfl, rest, rfl⟩
  | name x =>
    obtain ⟨vs, rest, rfl⟩ := map_eq_ok ordered
    exact ⟨[.name x], pending, vs, .operand rfl, rest, rfl⟩
  | openParen => exact ⟨[], .openParen :: pending, us, .opened, ordered, rfl⟩
  | closeParen =>
    rw [orderFrom_close] at ordered
    have split := List.takeWhile_append_dropWhile (p := notOpen) (l := pending)
    have others := List.all_eq_true.mp (List.all_takeWhile (p := notOpen) (l := pending))
    rcases dropWhile_notOpen_cases pending with ⟨unopened, -⟩ | ⟨outer, opened, -⟩
    · rw [unopened] at ordered
      cases ordered
    · rw [opened] at ordered split
      obtain ⟨vs, rest, rfl⟩ := map_eq_ok ordered
      exact ⟨_, outer, vs, .closed split.symm others, rest, rfl⟩
  | operator o op =>
    rw [orderFrom_operator] at ordered
    have split := List.takeWhile_append_dropWhile (p := yields (.operator o op)) (l := pending)
    have yielded := List.all_eq_true.mp
      (List.all_takeWhile (p := yields (.operator o op)) (l := pending))
    have kept : ∀ s ∈ (pending.dropWhile (yields (.operator o op))).head?,
        ¬ yields (.operator o op) s = true := by
      intro s first
      have stays := List.head?_dropWhile_not (yields (.operator o op)) pending
      rw [first] at stays
      simpa using stays
    obtain ⟨vs, rest, rfl⟩ := map_eq_ok ordered
    exact ⟨_, _, vs, .operator split.symm yielded kept, rest, rfl⟩

theorem Puts.perm {pending pending' out : List (Token α)} {t : Token α}
    (puts : Puts pending t out pending') : (bare (out ++ pending')).Perm (bare (t :: pending)) := by
  cases puts with
  | operand => exact .refl _
  | opened => exact .refl _
  | closed split =>
    have outside : bare (.openParen :: pending') = bare pending' := rfl
    change (bare (out ++ pending')).Perm (bare pending)
    rw [split, bare_append, bare_append, outside]
  | operator split =>
    rw [split]
    exact (bare_middle _ _ _).symm

/-- The tokens put out are the pending ones and those that follow, without the parentheses. -/
theorem perm_of_orderFrom {pending ts us : List (Token α)}
    (ordered : orderFrom pending ts = .ok us) : (bare us).Perm (bare (pending ++ ts)) := by
  induction ts generalizing pending us with
  | nil =>
    rw [orderFrom] at ordered
    split at ordered
    · obtain rfl := Except.ok.inj ordered
      rw [List.append_nil]
    · cases ordered
  | cons t ts ih =>
    obtain ⟨out, pending', vs, puts, rest, rfl⟩ := puts_of_orderFrom ordered
    calc
      bare (out ++ vs) = bare out ++ bare vs := bare_append out vs
      List.Perm _ (bare out ++ bare (pending' ++ ts)) := (ih rest).append_left _
      _ = bare (out ++ pending') ++ bare ts := by simp only [bare_append, List.append_assoc]
      List.Perm _ (bare (t :: pending) ++ bare ts) := puts.perm.append_right _
      _ = bare (t :: (pending ++ ts)) := (bare_append (t :: pending) ts).symm
      List.Perm _ (bare (pending ++ t :: ts)) := bare_middle t pending ts

theorem perm_of_order {ts us : List (Token α)} (ordered : order ts = .ok us) :
    (bare us).Perm (bare ts) := perm_of_orderFrom ordered

theorem names_bare (ts : List (Token α)) : names (bare ts) = names ts := by
  rw [names, names, bare, List.filterMap_filter]
  congr 1
  funext t
  cases t <;> rfl

def Waits (t : Token α) : Prop := t.isOperator = true ∨ t = .openParen

theorem Waits.isOperator {t : Token α} (waits : Waits t) (other : notOpen t = true) :
    t.isOperator = true := by
  rcases waits with operator | rfl
  · exact operator
  · cases other

theorem isOperand_of_isOperator {t : Token α} (operator : t.isOperator = true) :
    t.isOperand = false := by
  cases t <;> first | rfl | cases operator

theorem isParen_of_isOperator {t : Token α} (operator : t.isOperator = true) :
    t.isParen = false := by
  cases t <;> first | rfl | cases operator

/-- Operators are neither operands nor parentheses. -/
theorem kept_of_operators {out : List (Token α)} (operators : ∀ s ∈ out, s.isOperator = true) :
    (∀ s ∈ out, s.isParen = false) ∧ out.filter Token.isOperand = [] := by
  refine ⟨fun s member => isParen_of_isOperator (operators s member), ?_⟩
  rw [List.filter_eq_nil_iff]
  intro s member
  simp [isOperand_of_isOperator (operators s member)]

/-- Only operators leave the pending tokens, so that an operand that comes is the next to be put
out. -/
theorem Puts.kept {pending pending' out : List (Token α)} {t : Token α}
    (puts : Puts pending t out pending') (waiting : ∀ s ∈ pending, Waits s) :
    ((∀ s ∈ out, s.isParen = false) ∧ out.filter Token.isOperand = [t].filter Token.isOperand) ∧
      ∀ s ∈ pending', Waits s := by
  cases puts with
  | operand operand =>
    refine ⟨⟨List.forall_mem_singleton.mpr ?_, rfl⟩, waiting⟩
    cases t <;> first | rfl | cases operand
  | opened =>
    exact ⟨⟨List.forall_mem_nil _, rfl⟩, List.forall_mem_cons.mpr ⟨Or.inr rfl, waiting⟩⟩
  | closed split others =>
    rw [split, List.forall_mem_append, List.forall_mem_cons] at waiting
    obtain ⟨leaving, -, staying⟩ := waiting
    exact ⟨kept_of_operators fun s gone => (leaving s gone).isOperator (others s gone), staying⟩
  | operator split yielded =>
    rw [split, List.forall_mem_append] at waiting
    obtain ⟨leaving, staying⟩ := waiting
    exact ⟨kept_of_operators fun s gone =>
        (leaving s gone).isOperator (notOpen_of_yields (yielded s gone)),
      List.forall_mem_cons.mpr ⟨Or.inl rfl, staying⟩⟩

theorem kept_of_orderFrom {pending ts us : List (Token α)} (waiting : ∀ t ∈ pending, Waits t)
    (ordered : orderFrom pending ts = .ok us) :
    (∀ t ∈ us, t.isParen = false) ∧ us.filter Token.isOperand = ts.filter Token.isOperand := by
  induction ts generalizing pending us with
  | nil =>
    rw [orderFrom] at ordered
    split at ordered
    · rename_i closed
      obtain rfl := Except.ok.inj ordered
      exact kept_of_operators fun t member =>
        (waiting t member).isOperator (List.all_eq_true.mp closed t member)
    · cases ordered
  | cons t ts ih =>
    obtain ⟨out, pending', vs, puts, rest, rfl⟩ := puts_of_orderFrom ordered
    obtain ⟨⟨noParens, operands⟩, waiting'⟩ := puts.kept waiting
    obtain ⟨noParens', operands'⟩ := ih waiting' rest
    refine ⟨List.forall_mem_append.mpr ⟨noParens, noParens'⟩, ?_⟩
    rw [List.filter_append, operands, operands', ← List.filter_append, List.singleton_append]

/-- The tokens that come out are those that went in, without the parentheses, and the operands among
them stand as they stood. -/
theorem kept_of_order {ts us : List (Token α)} (ordered : order ts = .ok us) :
    us.Perm (bare ts) ∧ us.filter Token.isOperand = ts.filter Token.isOperand := by
  obtain ⟨noParens, operands⟩ := kept_of_orderFrom (List.forall_mem_nil _) ordered
  have same : bare us = us := List.filter_eq_self.mpr fun t member => by simp [noParens t member]
  have perm := perm_of_order ordered
  rw [same] at perm
  exact ⟨perm, operands⟩

/-! ### Parentheses that do not match -/

def closeCount (ts : List (Token α)) : Nat :=
  ts.countP fun
    | .closeParen => true
    | _ => false

/-- Whether somewhere in the tokens more parentheses have been closed than opened, of which `depth`
were open before. -/
def Overcloses (depth : Nat) (ts : List (Token α)) : Prop :=
  ∃ us, us <+: ts ∧ depth + openCount us < closeCount us

/-- What putting tokens in order comes to when `depth` parentheses are open before them. -/
inductive Judged (depth : Nat) (ts : List (Token α)) : Except ExprError (List (Token α)) → Prop
  | ordered (us : List (Token α)) (within : ¬ Overcloses depth ts)
      (closed : closeCount ts = depth + openCount ts) : Judged depth ts (.ok us)
  | unexpected (exceeds : Overcloses depth ts) : Judged depth ts (.error .unexpectedClose)
  | missing (within : ¬ Overcloses depth ts) (short : closeCount ts < depth + openCount ts) :
      Judged depth ts (.error .missingClose)

theorem not_overcloses_nil (depth : Nat) : ¬ Overcloses depth ([] : List (Token α)) := by
  rintro ⟨us, before, exceeds⟩
  rw [List.prefix_nil.mp before] at exceeds
  exact absurd exceeds (Nat.not_lt_zero _)

theorem closeCount_close (ts : List (Token α)) :
    closeCount (.closeParen :: ts) = closeCount ts + 1 := List.countP_cons_of_pos rfl

section Judging

variable {depth depth' : Nat} {t : Token α} {ts : List (Token α)}

/-- A token before others, after which `depth'` parentheses are open instead of `depth`. It may
itself close `k` of these. -/
theorem overcloses_cons {k : Nat}
    (opens : ∀ us, depth + openCount (t :: us) = depth' + openCount us + k)
    (closes : ∀ us, closeCount (t :: us) = closeCount us + k) :
    Overcloses depth (t :: ts) ↔ Overcloses depth' ts := by
  constructor
  · rintro ⟨us, before, exceeds⟩
    rcases List.prefix_cons_iff.mp before with rfl | ⟨us, rfl, shorter⟩
    · exact absurd exceeds (Nat.not_lt_zero _)
    · exact ⟨us, shorter, by have := opens us; have := closes us; omega⟩
  · rintro ⟨us, before, exceeds⟩
    exact ⟨t :: us, List.cons_prefix_cons.mpr ⟨rfl, before⟩,
      by have := opens us; have := closes us; omega⟩

theorem Judged.cons {k : Nat} {result : Except ExprError (List (Token α))}
    (judged : Judged depth' ts result)
    (opens : ∀ us, depth + openCount (t :: us) = depth' + openCount us + k)
    (closes : ∀ us, closeCount (t :: us) = closeCount us + k)
    (f : List (Token α) → List (Token α)) : Judged depth (t :: ts) (f <$> result) := by
  have exceeds : Overcloses depth (t :: ts) ↔ Overcloses depth' ts := overcloses_cons opens closes
  have opens := opens ts
  have closes := closes ts
  cases judged with
  | ordered us within closed => exact .ordered _ (mt exceeds.mp within) (by omega)
  | unexpected early => exact .unexpected (exceeds.mpr early)
  | missing within short => exact .missing (mt exceeds.mp within) (by omega)

theorem judged_orderFrom (pending ts : List (Token α)) :
    Judged (openCount pending) ts (orderFrom pending ts) := by
  induction ts generalizing pending with
  | nil =>
    have within : ¬ Overcloses (openCount pending) ([] : List (Token α)) := not_overcloses_nil _
    rw [orderFrom, all_notOpen]
    by_cases none : openCount pending = 0
    · rw [none]
      exact .ordered _ (none ▸ within) rfl
    · rw [if_neg (by simpa using none)]
      exact .missing within (Nat.pos_of_ne_zero none)
  | cons t ts ih =>
    cases t with
    | literal v => exact (ih pending).cons (k := 0) (fun _ => rfl) (fun _ => rfl) _
    | name x => exact (ih pending).cons (k := 0) (fun _ => rfl) (fun _ => rfl) _
    | openParen =>
      have opened := ih (.openParen :: pending)
      rw [openCount_open] at opened
      rw [orderFrom_open, ← id_map (orderFrom _ ts)]
      refine opened.cons (k := 0) (fun us => ?_) (fun _ => rfl) id
      rw [openCount_open]
      omega
    | closeParen =>
      have opens (us : List (Token α)) : openCount (.closeParen :: us) = openCount us := rfl
      rw [orderFrom_close]
      rcases dropWhile_notOpen_cases pending with ⟨unopened, count⟩ | ⟨outer, opened, count⟩
      · rw [unopened, count]
        exact .unexpected ⟨[.closeParen], ⟨ts, rfl⟩, Nat.zero_lt_one⟩
      · rw [opened, count]
        refine (ih outer).cons (k := 1) (fun us => ?_) closeCount_close _
        rw [opens]
        omega
    | operator o op =>
      have waiting := ih (.operator o op :: pending.dropWhile (yields (.operator o op)))
      rw [openCount_cons rfl, openCount_dropWhile_yields] at waiting
      exact waiting.cons (k := 0) (fun _ => rfl) (fun _ => rfl) _

end Judging

/-! ### The outcome -/

/-- Whether a beginning of the tokens closes more parentheses than it opens. -/
def Overclosed (ts : List (Token α)) : Prop := ∃ us, us <+: ts ∧ openCount us < closeCount us

/-- Whether tokens are refused for their parentheses, in these words. -/
def RefusedWith (ts : List (Token α)) (words : String) : Prop :=
  ∃ fault, order ts = .error fault ∧ fault.family = .parentheses ∧ fault.message = words

section Outcome

variable {ts : List (Token α)}

theorem refusedWith_iff {fault : ExprError} (failed : order ts = .error fault) (words : String) :
    RefusedWith ts words ↔ fault.message = words := by
  constructor
  · rintro ⟨fault', failed', -, said⟩
    obtain rfl := Except.error.inj (failed.symm.trans failed')
    exact said
  · intro said
    exact ⟨fault, failed, orderFrom_error_family failed, said⟩

theorem not_refusedWith {us : List (Token α)} (ordered : order ts = .ok us) (words : String) :
    ¬ RefusedWith ts words := by
  rintro ⟨fault, failed, -⟩
  cases ordered.symm.trans failed

end Outcome

/-- Tokens of any kind and in any sequence are refused exactly if their parentheses do not match,
and told which one is at fault. Otherwise they come out without the parentheses and reordered, with
the operands as they stood. -/
theorem order_outcome (ts : List (Token α)) :
    (RefusedWith ts "Unbalanced parentheses: unexpected ')'" ↔ Overclosed ts) ∧
    (RefusedWith ts "Unbalanced parentheses: missing ')'" ↔
      ¬ Overclosed ts ∧ closeCount ts < openCount ts) ∧
    ((∃ us, order ts = .ok us ∧ us.Perm (bare ts) ∧
        us.filter Token.isOperand = ts.filter Token.isOperand) ↔
      ¬ Overclosed ts ∧ ¬ closeCount ts < openCount ts) := by
  have judged : Judged 0 ts (order ts) := judged_orderFrom [] ts
  have exceeds : Overcloses 0 ts ↔ Overclosed ts := by simp [Overcloses, Overclosed]
  cases outcome : order ts with
  | ok us =>
    rw [outcome] at judged
    cases judged with
    | ordered _ within closed =>
      have matched : ¬ closeCount ts < openCount ts := by omega
      exact ⟨iff_of_false (not_refusedWith outcome _) (mt exceeds.mpr within),
        iff_of_false (not_refusedWith outcome _) fun short => matched short.2,
        iff_of_true ⟨us, rfl, kept_of_order outcome⟩ ⟨mt exceeds.mpr within, matched⟩⟩
  | error fault =>
    have nothing (P : List (Token α) → Prop) : ¬ ∃ us, Except.error fault = .ok us ∧ P us := by
      rintro ⟨us, ⟨⟩, -⟩
    rw [outcome] at judged
    rw [refusedWith_iff outcome, refusedWith_iff outcome]
    cases judged with
    | unexpected early =>
      exact ⟨iff_of_true rfl (exceeds.mp early),
        iff_of_false (by decide) fun short => short.1 (exceeds.mp early),
        iff_of_false (nothing _) fun matched => matched.1 (exceeds.mp early)⟩
    | missing within short =>
      have open_ : closeCount ts < openCount ts := by omega
      exact ⟨iff_of_false (by decide) (mt exceeds.mpr within),
        iff_of_true rfl ⟨mt exceeds.mpr within, open_⟩,
        iff_of_false (nothing _) fun matched => matched.2 open_⟩

/-- Nothing but parentheses is checked here, so that tokens of no expression come out, too. -/
example (o : Origin) (v w : α) :
    order [.operator o .add, .openParen, .literal v, .closeParen, .literal w] =
      .ok [.literal v, .literal w, .operator o .add] := rfl

end Equate.Rpn
