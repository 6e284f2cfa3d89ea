import Equate.Proofs.Solving.Course
import Equate.Proofs.Tally

/-!
# What comes of solving

`Sides.Decides` sets out, for an equation as it is formed, when a target is refused, when a power
is in the way, when a value is missing and when there is a solution. `solving_decided` shows that
no run comes to anything else.
-/

namespace Equate

variable {α : Type}

theorem Op.undo_eq_none_iff {op : Op} {slot : Slot} : op.undo slot = none ↔ op = .pow := by
  cases op <;> simp [undo, inverse?]

/-! ### Names on both sides -/

theorem Expr.operatorsAbove_of_pathTo? {x : String} {o : Origin} {op : Op} {l r : Expr α}
    {slot : Slot} {path : List Slot}
    (leads : (Expr.node o op l r).pathTo? x = some (slot :: path)) :
    (Expr.node o op l r).operatorsAbove x = op :: (slot.pick l r).operatorsAbove x := by
  obtain ⟨_, _, _, _, same, next, past⟩ := eq_node_of_pathTo? leads
  cases same
  have present := mem_names_of_pathTo? next
  cases slot with
  | left => simp only [operatorsAbove, if_pos (show x ∈ l.names from present), Slot.pick]
  | right =>
    simp only [operatorsAbove, if_neg (past rfl), if_pos (show x ∈ r.names from present),
      Slot.pick]

theorem Expr.count_pick {x : String} {o : Origin} {op : Op} {l r : Expr α} {slot : Slot}
    (once : (Expr.node o op l r).names.count x = 1) (present : x ∈ (slot.pick l r).names) :
    (slot.pick l r).names.count x = 1 ∧ x ∉ (slot.flip.pick l r).names := by
  have counted := List.count_pos_iff.mpr present
  rw [names_node, List.count_append] at once
  rw [← List.count_eq_zero]
  cases slot <;> simp only [Slot.pick, Slot.flip] at counted ⊢ <;> omega

theorem Expr.mem_names_pick {y : String} {o : Origin} {op : Op} {l r : Expr α} (slot : Slot) :
    y ∈ (Expr.node o op l r).names ↔
      y ∈ (slot.pick l r).names ∨ y ∈ (slot.flip.pick l r).names := by
  cases slot with
  | left => simp [Slot.pick, Slot.flip]
  | right => simp [Slot.pick, Slot.flip, or_comm]

namespace Solving

variable [Arithmetic α] {env : Env α}

theorem mem_names_moved {y : String} (unbound : env y = none) (applied : Op) (place : Slot)
    (other operand : Expr α) :
    y ∈ (moved env applied place other operand).names ↔ y ∈ other.names ∨ y ∈ operand.names := by
  rw [moved, ← Expr.mem_unboundNames unbound, Expr.unboundNames_foldRoot,
    Expr.mem_unboundNames unbound]
  cases place with
  | left => simp [wrap]
  | right => simp [wrap, or_comm]

/-! ### The end of a course -/

theorem Course.outcome_of_pow {x : String} {side : Side} {path : List Slot}
    {unknown other : Expr α} {run : Solving α} (course : Course env x side path unknown other run)
    (power : .pow ∈ unknown.operatorsAbove x) :
    run.outcome = .error (.expression (.noInverse x .pow)) := by
  induction course with
  | alone other => cases power
  | blocked leads lasting =>
    rw [Op.undo_eq_none_iff.mp lasting]
    rfl
  | step leads undone rest ih =>
    rw [Expr.operatorsAbove_of_pathTo? leads] at power
    rcases List.mem_cons.mp power with same | later
    · rw [Op.undo_eq_none_iff.mpr same.symm] at undone
      cases undone
    · exact ih later

/-- Otherwise the course ends with the value of an expression that has every other variable of the
two it started with, as far as they have no values. -/
theorem Course.outcome_of_no_pow {x : String} {side : Side} {path : List Slot}
    {unknown other : Expr α} {run : Solving α} (course : Course env x side path unknown other run)
    (unbound : env x = none) (once : unknown.names.count x = 1) (absent : x ∉ other.names)
    (free : .pow ∉ unknown.operatorsAbove x) :
    ∃ e : Expr α, run.outcome = e.eval env ∧
      ∀ y, env y = none → (y ∈ e.names ↔ (y ∈ unknown.names ∨ y ∈ other.names) ∧ y ≠ x) := by
  induction course with
  | alone other =>
    refine ⟨other, rfl, fun y _ => ?_⟩
    constructor
    · intro member
      exact ⟨Or.inr member, fun same => absent (same ▸ member)⟩
    · rintro ⟨self | member, different⟩
      · exact absurd (List.mem_singleton.mp self) different
      · exact member
  | blocked leads lasting =>
    rw [Expr.operatorsAbove_of_pathTo? leads, Op.undo_eq_none_iff.mp lasting] at free
    exact absurd List.mem_cons_self free
  | @step o op applied l r other slot place path run leads undone rest ih =>
    obtain ⟨_, _, _, _, same, next, -⟩ := Expr.eq_node_of_pathTo? leads
    cases same
    -- the operand goes over to the other side, which leaves the two with the same names
    obtain ⟨onceNext, absentOperand⟩ := Expr.count_pick once (Expr.mem_names_of_pathTo? next)
    have absentMoved : x ∉ (moved env applied place other (slot.flip.pick l r)).names := by
      rw [mem_names_moved unbound]
      exact not_or.mpr ⟨absent, absentOperand⟩
    rw [Expr.operatorsAbove_of_pathTo? leads] at free
    obtain ⟨e, outcome, members⟩ :=
      ih onceNext absentMoved fun later => free (List.mem_cons_of_mem op later)
    refine ⟨e, outcome, fun y missing => ?_⟩
    rw [members y missing, mem_names_moved missing, Expr.mem_names_pick slot]
    simp only [or_comm, or_left_comm]

end Solving

/-! ### Equations -/

namespace Sides

def operatorsAbove (x : String) (s : Sides α) : List Op :=
  s.lhs.operatorsAbove x ++ s.rhs.operatorsAbove x

/-- What the sides and the bindings decide about a solution for `x`. It is refused unless `x` has
no value and occurs once; a power above it has no inverse; and every other variable needs a
value. -/
def Decides [Arithmetic α] (env : Env α) (x : String) (s : Sides α)
    (outcome : Except Failure α) : Prop :=
  if (env x).isSome ∨ s.names.count x ≠ 1 then
    ∃ fault, fault.family = .unsolvable ∧ outcome = .error (.expression fault)
  else if .pow ∈ s.operatorsAbove x then
    outcome = .error (.expression (.noInverse x .pow))
  else if ∃ y ∈ s.names, (env y).isNone ∧ y ≠ x then
    ∃ y ∈ s.names, env y = none ∧ y ≠ x ∧ outcome = .error (.expression (.unresolved y))
  else ∃ v, outcome = .ok v

theorem Decides.solved [Arithmetic α] {env : Env α} {x : String} {s : Sides α}
    {outcome : Except Failure α} (decided : s.Decides env x outcome)
    (only : ∀ y ∈ s.names, env y = none ↔ y = x) (once : s.names.count x = 1)
    (free : .pow ∉ s.operatorsAbove x) : ∃ v, outcome = .ok v := by
  have present : x ∈ s.names := List.count_pos_iff.mp (once ▸ Nat.one_pos)
  have accepted : ¬ ((env x).isSome ∨ s.names.count x ≠ 1) := by
    rintro (bound | often)
    · simp [(only x present).mpr rfl] at bound
    · exact often once
  have complete : ¬ ∃ y ∈ s.names, (env y).isNone ∧ y ≠ x := by
    rintro ⟨y, member, missing, different⟩
    exact different ((only y member).mp (Option.isNone_iff_eq_none.mp missing))
  unfold Decides at decided
  rwa [if_neg accepted, if_neg free, if_neg complete] at decided

theorem names_eq (s : Sides α) : s.names = s.lhs.names ++ s.rhs.names := rfl

end Sides

namespace Equation

theorem checkTarget_between {env : Env α} {x : String} {lhs rhs : Expr α}
    (unbound : env x = none) (once : (Sides.mk lhs rhs).names.count x = 1) :
    checkTarget env x (between lhs rhs).occurrences = .ok () := by
  simp [checkTarget, between, unbound, lookup_tally, once]

theorem checkTarget_refused {env : Env α} {x : String} {lhs rhs : Expr α}
    (refused : (env x).isSome ∨ (Sides.mk lhs rhs).names.count x ≠ 1) :
    ∃ fault, fault.family = .unsolvable ∧
      checkTarget env x (between lhs rhs).occurrences = .error fault := by
  unfold checkTarget
  split
  · exact ⟨_, rfl, rfl⟩
  · rename_i unbound
    have often := refused.resolve_left unbound
    simp only [between, lookup_tally]
    by_cases never : (Sides.mk lhs rhs).names.count x = 0
    · exact ⟨.absent x, rfl, by simp [never]⟩
    · exact ⟨.repeated x ((Sides.mk lhs rhs).names.count x), rfl, by simp [never, often]⟩

variable [Arithmetic α]

theorem solving_course {env : Env α} {x : String} {lhs rhs : Expr α} (unbound : env x = none)
    (once : (Sides.mk lhs rhs).names.count x = 1) :
    ∃ side path unknown other,
      Solving.arrange side unknown other = ⟨lhs.simplify env, rhs.simplify env⟩ ∧
      unknown.names.count x = 1 ∧ x ∉ other.names ∧
      Solving.Course env x side path unknown other ((between lhs rhs).solving env x) := by
  have total : (lhs.simplify env).names.count x + (rhs.simplify env).names.count x = 1 := by
    rw [Expr.count_names_simplify unbound, Expr.count_names_simplify unbound]
    rwa [Sides.names_eq, List.count_append] at once
  rw [solving, checkTarget_between unbound once]
  rcases Solving.isolate_course env x lhs rhs with ⟨left, right, -⟩ | course
  · rw [← List.count_eq_zero] at left right
    omega
  · obtain ⟨side, path, unknown, other, found, arranged, course⟩ := course
    have present := List.count_pos_iff.mpr (Expr.mem_names_of_pathTo? found)
    refine ⟨side, path, unknown, other, arranged, ?_, ?_, course⟩
    · cases side <;> cases arranged <;> omega
    · rw [← List.count_eq_zero]
      cases side <;> cases arranged <;> omega

theorem solving_decided (env : Env α) (x : String) (lhs rhs : Expr α) :
    (Sides.mk lhs rhs).Decides env x ((between lhs rhs).solving env x).outcome := by
  unfold Sides.Decides
  split
  · rename_i refused
    obtain ⟨fault, family, failed⟩ := checkTarget_refused refused
    refine ⟨fault, family, ?_⟩
    rw [solving, failed]
    rfl
  · rename_i accepted
    simp only [not_or, Option.not_isSome_iff_eq_none, ne_eq, Decidable.not_not] at accepted
    obtain ⟨unbound, once⟩ := accepted
    obtain ⟨side, path, unknown, other, arranged, onceUnknown, absent, course⟩ :=
      solving_course unbound once
    have above : (Sides.mk lhs rhs).operatorsAbove x = unknown.operatorsAbove x := by
      have none_there := Expr.operatorsAbove_of_absent absent
      rw [Sides.operatorsAbove, ← Expr.operatorsAbove_simplify unbound lhs,
        ← Expr.operatorsAbove_simplify unbound rhs]
      cases side <;> cases arranged <;> simp [none_there]
    have members : ∀ y, env y = none →
        (y ∈ (Sides.mk lhs rhs).names ↔ y ∈ unknown.names ∨ y ∈ other.names) := by
      intro y missing
      rw [Sides.names_eq, List.mem_append, ← Expr.mem_names_simplify missing,
        ← Expr.mem_names_simplify (e := rhs) missing]
      cases side <;> cases arranged <;> simp [or_comm]
    split
    · rename_i power
      exact course.outcome_of_pow (above ▸ power)
    · rename_i free
      obtain ⟨e, outcome, names⟩ :=
        course.outcome_of_no_pow unbound onceUnknown absent (above ▸ free)
      rw [outcome]
      split
      · rename_i missing
        obtain ⟨y, member, unboundY, different⟩ := missing
        rw [Option.isNone_iff_eq_none] at unboundY
        have present := (names y unboundY).mpr ⟨(members y unboundY).mp member, different⟩
        obtain ⟨z, presentZ, unboundZ, failed⟩ := Expr.eval_unresolved present unboundY
        have origin := (names z unboundZ).mp presentZ
        exact ⟨z, (members z unboundZ).mpr origin.1, unboundZ, origin.2, failed⟩
      · rename_i complete
        apply Expr.eval_ok
        intro y present
        cases bound : env y with
        | some v => rfl
        | none =>
          have origin := (names y bound).mp present
          exact absurd ⟨y, (members y bound).mpr origin.1, by simp [bound], origin.2⟩ complete

end Equation

end Equate
