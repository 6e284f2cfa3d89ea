import Equate.Proofs.Formula.Order

/-!
# What operators reach

An operator waits until it gives way: to an operator that binds no more strongly, to the
parenthesis that closes around it, or to the end. What is inside of later parentheses does not
count. So the tokens as they stand tell how many operators have given way at any place.
`supplies_iff`: in postfix order every operator has two operands before it exactly if, at every
place, fewer operators have given way than there are operands before, or none has.
-/

namespace Equate.Rpn

variable {α : Type}

/-! ### Operators that give way -/

def depthAfter (depth : Nat) : Token α → Nat
  | .openParen => depth + 1
  | .closeParen => depth - 1
  | _ => depth

/-- How many of the tokens come before the operator gives way that stands in front of them and binds
so strongly. Of the parentheses that were opened behind it, `depth` are to be closed first. -/
def reach (strength : Nat) : (depth : Nat) → List (Token α) → Nat
  | _, [] => 0
  | depth, t :: ts =>
    if depth = 0 ∧ Releases strength (t :: ts) then 0
    else reach strength (depthAfter depth t) ts + 1

theorem reach_released {strength : Nat} {t : Token α} {ts : List (Token α)}
    (released : Releases strength (t :: ts)) : reach strength 0 (t :: ts) = 0 :=
  if_pos ⟨rfl, released⟩

/-- How many operators among the first `n` tokens have given way behind these. -/
def retired : (n : Nat) → List (Token α) → Nat
  | n + 1, .operator o op :: ts =>
    retired n ts + if reach (Token.operator o op : Token α).precedence 0 ts ≤ n then 1 else 0
  | n + 1, _ :: ts => retired n ts
  | _, _ => 0

/-- Whether infix tokens are supplied with operands: wherever they are parted, fewer operators have
given way than there are operands before, or none has. -/
def Supplies (ts : List (Token α)) : Prop :=
  ∀ n ≤ ts.length, retired n ts = 0 ∨ retired n ts < (ts.take n).countP Token.isOperand

instance (ts : List (Token α)) : Decidable (Supplies ts) :=
  inferInstanceAs (Decidable (∀ n ≤ ts.length, _))

/-- Whether postfix tokens after `n` operands have two operands for every operator. -/
def supplied : (n : Nat) → List (Token α) → Bool
  | _, [] => true
  | n, .literal _ :: ts | n, .name _ :: ts => supplied (n + 1) ts
  | n, .operator .. :: ts => 2 ≤ n && supplied (n - 1) ts
  | _, .openParen :: _ | _, .closeParen :: _ => false

theorem supplied_operand (t : Token α) (n : Nat) (ts : List (Token α)) :
    supplied n ([t].filter Token.isOperand ++ ts) =
      supplied (n + [t].countP Token.isOperand) ts := by
  cases t <;> rfl

theorem supplied_operators {gone : List (Token α)} (operators : ∀ s ∈ gone, s.isOperator = true)
    (n : Nat) (ts : List (Token α)) : supplied n (gone ++ ts) = true ↔
      (gone.length = 0 ∨ gone.length < n) ∧ supplied (n - gone.length) ts = true := by
  induction gone generalizing n with
  | nil => simp
  | cons s gone ih =>
    obtain ⟨operator, others⟩ := List.forall_mem_cons.mp operators
    have fewer : n - 1 - gone.length = n - (gone.length + 1) := by omega
    cases s with
    | operator o op =>
      rw [List.cons_append, supplied, Bool.and_eq_true, decide_eq_true_iff, ih others, fewer,
        List.length_cons, ← and_assoc]
      refine and_congr_left fun _ => ?_
      omega
    | _ => cases operator

/-! ### Pending operators -/

/-- Pending tokens as they come about: open parentheses, and operators each of which binds more
strongly than the one before it, up to the bound. -/
inductive Climbs : (bound : Nat) → List (Token α) → Prop
  | nil {bound : Nat} : Climbs bound []
  | opened {bound outer : Nat} {below : List (Token α)} (climbs : Climbs outer below) :
      Climbs bound (.openParen :: below)
  | operator {bound : Nat} {o : Origin} {op : Op} {below : List (Token α)}
      (weaker : (Token.operator o op : Token α).precedence < bound)
      (climbs : Climbs (Token.operator o op : Token α).precedence below) :
      Climbs bound (.operator o op :: below)

/-- How many pending operators have given way behind the first `n` tokens. -/
def leaving : (depth : Nat) → (pending : List (Token α)) → (n : Nat) → List (Token α) → Nat
  | _, [], _, _ => 0
  | depth, .openParen :: below, n, ts => leaving (depth + 1) below n ts
  | depth, t :: below, n, ts =>
    leaving depth below n ts + if reach t.precedence depth ts ≤ n then 1 else 0

theorem leaving_operator (depth : Nat) (o : Origin) (op : Op) (below : List (Token α)) (n : Nat)
    (ts : List (Token α)) : leaving depth (.operator o op :: below) n ts =
      leaving depth below n ts +
        if reach (Token.operator o op : Token α).precedence depth ts ≤ n then 1 else 0 := rfl

section Pending

variable {bound : Nat} {pending gone left : List (Token α)} {t : Token α}

theorem Climbs.waits (climbs : Climbs bound pending) : ∀ s ∈ pending, Waits s := by
  induction climbs with
  | nil => exact List.forall_mem_nil _
  | opened _ ih => exact List.forall_mem_cons.mpr ⟨Or.inr rfl, ih⟩
  | operator _ _ ih => exact List.forall_mem_cons.mpr ⟨Or.inl rfl, ih⟩

theorem Climbs.of_append (climbs : Climbs bound (gone ++ left)) : ∃ bound', Climbs bound' left := by
  induction gone generalizing bound with
  | nil => exact ⟨bound, climbs⟩
  | cons s gone ih => cases climbs with
    | opened climbs => exact ih climbs
    | operator _ climbs => exact ih climbs

theorem Climbs.of_kept {o : Origin} {op : Op} (climbs : Climbs bound left)
    (kept : ∀ s ∈ left.head?, ¬ yields (.operator o op) s = true) :
    Climbs (Token.operator o op : Token α).precedence left := by
  cases climbs with
  | nil => exact .nil
  | opened climbs => exact .opened climbs
  | @operator _ o' op' _ _ climbs =>
    refine .operator (Nat.lt_of_not_le fun le => kept _ rfl ?_) climbs
    exact yields_iff.mpr ⟨Nat.ne_of_gt (precedence_pos o' op'), le⟩

theorem leaving_append {depth n : Nat} {ts : List (Token α)}
    (others : ∀ s ∈ gone, notOpen s = true) (give : ∀ s ∈ gone, reach s.precedence depth ts = 0)
    (left : List (Token α)) :
    leaving depth (gone ++ left) n ts = gone.length + leaving depth left n ts := by
  induction gone with
  | nil => exact (Nat.zero_add _).symm
  | cons s gone ih =>
    obtain ⟨other, others⟩ := List.forall_mem_cons.mp others
    obtain ⟨gives, give⟩ := List.forall_mem_cons.mp give
    have counted : leaving depth (s :: (gone ++ left)) n ts =
        leaving depth (gone ++ left) n ts + 1 := by
      cases s with
      | openParen => cases other
      | _ => simp [leaving, gives]
    rw [List.cons_append, counted, ih others give, List.length_cons]
    omega

/-- A token that makes no pending operator give way. -/
theorem leaving_cons (climbs : Climbs bound pending) {depth : Nat} {ts : List (Token α)}
    (shift : depthAfter (depth + 1) t = depthAfter depth t + 1)
    (stays : depth = 0 → ∀ k < bound, ¬ Releases k (t :: ts)) :
    leaving depth pending 0 (t :: ts) = 0 ∧
      ∀ n, leaving depth pending (n + 1) (t :: ts) = leaving (depthAfter depth t) pending n ts := by
  induction climbs generalizing depth with
  | nil => exact ⟨rfl, fun _ => rfl⟩
  | opened climbs ih =>
    have deeper : depthAfter (depth + 1 + 1) t = depthAfter (depth + 1) t + 1 := by
      cases t <;> rfl
    -- what waits outside of an open parenthesis does not give way at any token
    obtain ⟨first, later⟩ := ih deeper fun top => absurd top (Nat.succ_ne_zero depth)
    refine ⟨first, fun n => ?_⟩
    rw [leaving, leaving, ← shift]
    exact later n
  | @operator bound o op below weaker climbs ih =>
    obtain ⟨first, later⟩ := ih shift fun top k less => stays top k (Nat.lt_trans less weaker)
    have passed : reach (Token.operator o op : Token α).precedence depth (t :: ts) =
        reach (Token.operator o op : Token α).precedence (depthAfter depth t) ts + 1 :=
      if_neg fun both => stays both.1 _ weaker both.2
    refine ⟨?_, fun n => ?_⟩
    · rw [leaving_operator, first, passed]
      rfl
    · rw [leaving_operator, leaving_operator, later n, passed]
      simp only [Nat.add_le_add_iff_right]

end Pending

/-! ### One token -/

/-- What a token does to the pending operators: some of them have given way before it, and all
others that give way do so behind it. -/
structure Moves (pending : List (Token α)) (t : Token α) (gone pending' : List (Token α)) :
    Prop where
  operators : ∀ s ∈ gone, s.isOperator = true
  climbs : ∃ bound, Climbs bound pending'
  first : ∀ ts, leaving 0 pending 0 (t :: ts) = gone.length
  later : ∀ n ts, leaving 0 pending (n + 1) (t :: ts) + retired (n + 1) (t :: ts) =
    gone.length + (leaving 0 pending' n ts + retired n ts)

section Moves

variable {bound : Nat} {pending gone left : List (Token α)} {t : Token α}

theorem Moves.operand (climbs : Climbs bound pending) (operand : t.isOperand = true) :
    Moves pending t [] pending := by
  have level (depth : Nat) : depthAfter depth t = depth := by
    cases t <;> first | rfl | cases operand
  have stays (ts : List (Token α)) (k : Nat) : ¬ Releases k (t :: ts) := by
    cases t with
    | literal | name => exact id
    | _ => cases operand
  have same (n : Nat) (ts : List (Token α)) : retired (n + 1) (t :: ts) = retired n ts := by
    cases t with
    | literal | name => rfl
    | _ => cases operand
  have passed (ts : List (Token α)) : leaving 0 pending 0 (t :: ts) = 0 ∧
      ∀ n, leaving 0 pending (n + 1) (t :: ts) = leaving (depthAfter 0 t) pending n ts :=
    leaving_cons climbs (by rw [level, level]) fun _ k _ => stays ts k
  refine ⟨List.forall_mem_nil _, ⟨bound, climbs⟩, fun ts => (passed ts).1, fun n ts => ?_⟩
  rw [(passed ts).2, level, same]
  exact (Nat.zero_add _).symm

theorem Moves.opened (climbs : Climbs bound pending) :
    Moves pending .openParen [] (.openParen :: pending) := by
  have passed (ts : List (Token α)) : leaving 0 pending 0 (.openParen :: ts) = 0 ∧
      ∀ n, leaving 0 pending (n + 1) (.openParen :: ts) = leaving 1 pending n ts :=
    leaving_cons climbs rfl fun _ _ _ => id
  refine ⟨List.forall_mem_nil _, ⟨bound, .opened climbs⟩, fun ts => (passed ts).1, fun n ts => ?_⟩
  rw [(passed ts).2]
  exact (Nat.zero_add _).symm

theorem Moves.closed (climbs : Climbs bound (gone ++ .openParen :: left))
    (others : ∀ s ∈ gone, notOpen s = true) :
    Moves (gone ++ .openParen :: left) .closeParen gone left := by
  have waits := (List.forall_mem_append.mp climbs.waits).1
  obtain ⟨_, inner⟩ := climbs.of_append
  cases inner with
  | opened outside =>
    have counted (n : Nat) (ts : List (Token α)) :
        leaving 0 (gone ++ .openParen :: left) n (.closeParen :: ts) =
          gone.length + leaving 1 left n (.closeParen :: ts) :=
      leaving_append others (fun _ _ => reach_released (t := .closeParen) trivial) _
    have passed (ts : List (Token α)) : leaving 1 left 0 (.closeParen :: ts) = 0 ∧
        ∀ n, leaving 1 left (n + 1) (.closeParen :: ts) = leaving 0 left n ts :=
      leaving_cons outside rfl fun top => absurd top Nat.one_ne_zero
    refine ⟨fun s member => (waits s member).isOperator (others s member), ⟨_, outside⟩,
      fun ts => ?_, fun n ts => ?_⟩
    · rw [counted, (passed ts).1]
      rfl
    · rw [counted, (passed ts).2, Nat.add_assoc]
      rfl

theorem Moves.operator {o : Origin} {op : Op} (climbs : Climbs bound (gone ++ left))
    (yielded : ∀ s ∈ gone, yields (.operator o op) s = true)
    (kept : ∀ s ∈ left.head?, ¬ yields (.operator o op) s = true) :
    Moves (gone ++ left) (.operator o op) gone (.operator o op :: left) := by
  have waits := (List.forall_mem_append.mp climbs.waits).1
  have others : ∀ s ∈ gone, notOpen s = true :=
    fun s member => notOpen_of_yields (yielded s member)
  obtain ⟨_, lower⟩ := climbs.of_append
  have staying := lower.of_kept kept
  have counted (n : Nat) (ts : List (Token α)) :
      leaving 0 (gone ++ left) n (.operator o op :: ts) =
        gone.length + leaving 0 left n (.operator o op :: ts) :=
    leaving_append others (fun s member =>
      reach_released (t := .operator o op) (yields_iff.mp (yielded s member)).2) left
  have passed (ts : List (Token α)) : leaving 0 left 0 (.operator o op :: ts) = 0 ∧
      ∀ n, leaving 0 left (n + 1) (.operator o op :: ts) = leaving 0 left n ts :=
    leaving_cons staying rfl fun _ _ => Nat.not_le_of_lt
  refine ⟨fun s member => (waits s member).isOperator (others s member),
    ⟨_, .operator (Nat.lt_succ_self _) staying⟩, fun ts => ?_, fun n ts => ?_⟩
  · rw [counted, (passed ts).1]
    rfl
  · rw [counted, (passed ts).2, leaving_operator, retired, Nat.add_assoc, Nat.add_assoc]
    exact congrArg _ (congrArg _ (Nat.add_comm _ _))

theorem Puts.moves {pending' out : List (Token α)} (puts : Puts pending t out pending')
    (climbs : Climbs bound pending) :
    ∃ gone, out = gone ++ [t].filter Token.isOperand ∧ Moves pending t gone pending' := by
  cases puts with
  | operand operand => exact ⟨[], by simp [operand], .operand climbs operand⟩
  | opened => exact ⟨[], rfl, .opened climbs⟩
  | closed split others =>
    subst split
    exact ⟨out, (List.append_nil out).symm, .closed climbs others⟩
  | operator split yielded kept =>
    subst split
    exact ⟨out, (List.append_nil out).symm, .operator climbs yielded kept⟩

end Moves

/-! ### All tokens -/

/-- Whether tokens are supplied that come when there are `n` operands, and these tokens pending. -/
def SuppliesFrom (n : Nat) (pending ts : List (Token α)) : Prop :=
  ∀ m ≤ ts.length, leaving 0 pending m ts + retired m ts = 0 ∨
    leaving 0 pending m ts + retired m ts < n + (ts.take m).countP Token.isOperand

theorem suppliesFrom_nil {pending : List (Token α)} (others : ∀ s ∈ pending, notOpen s = true)
    (n : Nat) : SuppliesFrom n pending [] ↔ pending.length = 0 ∨ pending.length < n := by
  have all : leaving 0 (pending ++ []) 0 [] = pending.length :=
    leaving_append others (fun _ _ => rfl) []
  rw [List.append_nil] at all
  constructor
  · intro enough
    have last := enough 0 (Nat.le_refl 0)
    rwa [all] at last
  · intro enough m le
    obtain rfl := Nat.le_zero.mp le
    rwa [all]

theorem suppliesFrom_cons {pending gone pending' : List (Token α)} {t : Token α}
    (moves : Moves pending t gone pending') (n : Nat) (ts : List (Token α)) :
    SuppliesFrom n pending (t :: ts) ↔ (gone.length = 0 ∨ gone.length < n) ∧
      SuppliesFrom (n - gone.length + [t].countP Token.isOperand) pending' ts := by
  have operands (m : Nat) : ((t :: ts).take (m + 1)).countP Token.isOperand =
      [t].countP Token.isOperand + (ts.take m).countP Token.isOperand := by
    rw [List.take_succ_cons, ← List.singleton_append, List.countP_append]
  constructor
  · intro all
    have first := all 0 (Nat.zero_le _)
    rw [moves.first] at first
    refine ⟨first, fun m le => ?_⟩
    have later := all (m + 1) (Nat.succ_le_succ le)
    rw [moves.later, operands] at later
    omega
  · rintro ⟨first, all⟩ m le
    cases m with
    | zero => rwa [moves.first]
    | succ m =>
      have later := all m (Nat.le_of_succ_le_succ le)
      rw [moves.later, operands]
      omega

theorem supplied_of_orderFrom {bound : Nat} {pending ts us : List (Token α)}
    (climbs : Climbs bound pending) (ordered : orderFrom pending ts = .ok us) (n : Nat) :
    supplied n us = true ↔ SuppliesFrom n pending ts := by
  induction ts generalizing bound pending us n with
  | nil =>
    rw [orderFrom] at ordered
    split at ordered
    · rename_i closed
      obtain rfl := Except.ok.inj ordered
      have others := List.all_eq_true.mp closed
      have operators : ∀ s ∈ pending, s.isOperator = true :=
        fun s member => (climbs.waits s member).isOperator (others s member)
      have counted := supplied_operators operators n []
      rw [List.append_nil, supplied, and_iff_left rfl] at counted
      rw [counted, suppliesFrom_nil others]
    · cases ordered
  | cons t ts ih =>
    obtain ⟨out, pending', vs, puts, rest, rfl⟩ := puts_of_orderFrom ordered
    obtain ⟨gone, rfl, moves⟩ := puts.moves climbs
    obtain ⟨_, climbs'⟩ := moves.climbs
    rw [List.append_assoc, supplied_operators moves.operators, supplied_operand, ih climbs' rest,
      suppliesFrom_cons moves]

/-- Operators find their operands in postfix order exactly if the tokens as they stand supply
them. -/
theorem supplies_iff {ts us : List (Token α)} (ordered : order ts = .ok us) :
    Supplies ts ↔ supplied 0 us = true := by
  rw [supplied_of_orderFrom (.nil : Climbs 0 []) ordered]
  simp only [SuppliesFrom, Supplies, leaving, Nat.zero_add]

/-- `-1e+16` has operands for both of its operators. In `-1 + 1e+16` the sign has only one. -/
example : Supplies ([.operator .parsed .sub, .literal 1, .name "e", .operator .parsed .add,
      .literal 16] : List (Token Nat)) ∧
    ¬ Supplies ([.operator .parsed .sub, .literal 1, .operator .parsed .add, .literal 1, .name "e",
      .operator .parsed .add, .literal 16] : List (Token Nat)) := by decide

end Equate.Rpn
