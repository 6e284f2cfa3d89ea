import Equate.Proofs.Solving.Exact
import Equate.Proofs.Solving.Outcome

/-!
# Putting a solution in

A value that comes out of a run may be put in for the unknown, and then both sides have one value,
unless that divides by zero. `solution_satisfies_iff`: it does so exactly if an operand beside the
unknown's side of a division is zero. The solver does not see such a zero, since it multiplies by
the divisor, or divides by the other side.
-/

namespace Equate

/-! ### Operands beside divisions -/

namespace Expr

variable {α : Type}

/-- The other operands of the divisions on the way from the root to a variable. -/
def besideDivisions (x : String) : Expr α → List (Expr α)
  | node _ op l r =>
    if x ∈ l.names then (if op = .div then [r] else []) ++ l.besideDivisions x
    else if x ∈ r.names then (if op = .div then [l] else []) ++ r.besideDivisions x
    else []
  | _ => []

theorem besideDivisions_of_absent {x : String} {e : Expr α} (absent : x ∉ e.names) :
    e.besideDivisions x = [] := by
  cases e with
  | node o op l r =>
    simp only [names_node, List.mem_append, not_or] at absent
    simp [besideDivisions, absent]
  | _ => rfl

theorem besideDivisions_of_pathTo? {x : String} {o : Origin} {op : Op} {l r : Expr α}
    {slot : Slot} {path : List Slot}
    (leads : (Expr.node o op l r).pathTo? x = some (slot :: path)) :
    (Expr.node o op l r).besideDivisions x =
      (if op = .div then [slot.flip.pick l r] else []) ++ (slot.pick l r).besideDivisions x := by
  obtain ⟨_, _, _, _, same, next, past⟩ := eq_node_of_pathTo? leads
  cases same
  have present := mem_names_of_pathTo? next
  cases slot with
  | left =>
    rw [besideDivisions, if_pos (show x ∈ l.names from present)]
    rfl
  | right =>
    rw [besideDivisions, if_neg (past rfl), if_pos (show x ∈ r.names from present)]
    rfl

end Expr

variable {pow : ℚ → ℚ → ℚ}

def Exact.bindings (b : String → Option ℚ) : Env (Exact pow) := fun x => (b x).map Exact.number

/-! ### One operator -/

/-- What is undone comes back, except when a zero stands beside a division. -/
theorem Op.onRational_undone {op applied : Op} {slot place : Slot}
    (undone : op.undo slot = some (applied, place)) {b p c : ℚ}
    (after : applied.onRational pow (place.pick b p) (place.pick p b) = some c) :
    op.onRational pow (slot.pick c p) (slot.pick p c) =
      if op = .div ∧ p = 0 then none else some b := by
  cases op with
  | add =>
    cases slot with
    | left =>
      cases undone; cases after
      simp [onRational, Slot.pick]
    | right =>
      cases undone; cases after
      simp [onRational, Slot.pick]
  | sub =>
    cases slot with
    | left =>
      cases undone; cases after
      simp [onRational, Slot.pick]
    | right =>
      cases undone; cases after
      simp [onRational, Slot.pick]
  | mul =>
    cases slot with
    | left =>
      cases undone
      obtain ⟨(nonzero : p ≠ 0), rfl⟩ := onRational_div_eq_some after
      simp [onRational, Slot.pick, nonzero]
    | right =>
      cases undone
      obtain ⟨(nonzero : p ≠ 0), rfl⟩ := onRational_div_eq_some after
      simp [onRational, Slot.pick, mul_div_cancel₀, nonzero]
  | div =>
    cases slot with
    | left =>
      cases undone; cases after
      by_cases zero : p = 0
      · simp [onRational, Slot.pick, zero]
      · simp [onRational, Slot.pick, zero]
    | right =>
      cases undone
      obtain ⟨(nonzero : b ≠ 0), rfl⟩ := onRational_div_eq_some after
      by_cases zero : p = 0
      · simp [onRational, Slot.pick, zero]
      · simp [onRational, Slot.pick, zero, nonzero]
  | pow => cases undone

theorem Solving.valueAt?_wrap_eq_some {s : String → ℚ} {place : Slot} {applied : Op}
    {other operand : Expr (Exact pow)} {c : ℚ}
    (value : (wrap applied place other operand).valueAt? s = some c) :
    ∃ b p, other.valueAt? s = some b ∧ operand.valueAt? s = some p ∧
      applied.onRational pow (place.pick b p) (place.pick p b) = some c := by
  cases place with
  | left =>
    obtain ⟨b, p, first, second, value⟩ := Expr.valueAt?_node_eq_some value
    exact ⟨b, p, first, second, value⟩
  | right =>
    obtain ⟨p, b, first, second, value⟩ := Expr.valueAt?_node_eq_some value
    exact ⟨b, p, second, first, value⟩

theorem Expr.valueAt?_pick {s : String → ℚ} {o : Origin} {op : Op} {l r : Expr (Exact pow)}
    {slot : Slot} {p : ℚ} (beside : (slot.flip.pick l r).valueAt? s = some p) :
    (node o op l r).valueAt? s = ((slot.pick l r).valueAt? s).bind fun u =>
      op.onRational pow (slot.pick u p) (slot.pick p u) := by
  cases slot with
  | left =>
    have beside : r.valueAt? s = some p := beside
    simp [valueAt?_node, beside, Slot.pick]
  | right =>
    have beside : l.valueAt? s = some p := beside
    simp [valueAt?_node, beside, Slot.pick]

/-! ### A whole run -/

variable {env : Env (Exact pow)} {s : String → ℚ}

/-- Where a run comes to a number, the side without the unknown had one from the start, and the
other side has the same one or, with a zero beside a division, none. -/
theorem Solving.Course.valueAt?_unknown (agrees : (Exact.assignment s).Extends env) {x : String}
    {side : Side} {path : List Slot} {unknown other : Expr (Exact pow)}
    {run : Solving (Exact pow)} (course : Course env x side path unknown other run)
    (solved : run.outcome = .ok (Exact.number (s x))) :
    ∃ b, other.valueAt? s = some b ∧ unknown.valueAt? s =
      if some 0 ∈ (unknown.besideDivisions x).map (Expr.valueAt? s) then none else some b := by
  induction course with
  | alone other =>
    have wide := Expr.eval_extends agrees solved
    rw [Expr.eval_assignment, Except.ok.injEq] at wide
    refine ⟨s x, congrArg Exact.value? wide, ?_⟩
    rw [Expr.valueAt?_var]
    rfl
  | blocked leads lasting => cases solved
  | @step o op applied l r other slot place path run leads undone rest ih =>
    obtain ⟨c, remaining, kept⟩ := ih solved
    rw [valueAt?_moved agrees] at remaining
    obtain ⟨b, p, opposite, beside, after⟩ := valueAt?_wrap_eq_some remaining
    refine ⟨b, opposite, ?_⟩
    rw [Expr.valueAt?_pick beside, kept, Expr.besideDivisions_of_pathTo? leads]
    have undoes := Op.onRational_undone undone after
    by_cases later : some 0 ∈ ((slot.pick l r).besideDivisions x).map (Expr.valueAt? s)
    · rw [if_pos later, if_pos]
      · rfl
      · rw [List.map_append]
        exact List.mem_append_right _ later
    · rw [if_neg later, Option.bind_some, undoes]
      by_cases division : op = .div
      · subst division
        by_cases zero : p = 0 <;> simp [zero, later, beside, Ne.symm]
      · simp [division, later]

/-! ### Folding beforehand -/

theorem Expr.besideDivisions_simplify (agrees : (Exact.assignment s).Extends env) {x : String}
    (unbound : env x = none) (e : Expr (Exact pow)) :
    ((e.simplify env).besideDivisions x).map (valueAt? s) =
      (e.besideDivisions x).map (valueAt? s) := by
  have same (e : Expr (Exact pow)) : (e.simplify env).valueAt? s = e.valueAt? s :=
    valueAt?_congr (eval_simplify agrees e)
  induction e with
  | lit v => rfl
  | var y => rfl
  | node o op l r ihl ihr =>
    by_cases present : x ∈ (node o op l r).names
    · rw [simplify_node_of_unbound present unbound]
      simp only [besideDivisions, mem_names_simplify unbound]
      split
      · rw [List.map_append, List.map_append, ihl]
        by_cases division : op = .div <;> simp [division, same]
      · split
        · rw [List.map_append, List.map_append, ihr]
          by_cases division : op = .div <;> simp [division, same]
        · rfl
    · have absent := present
      rw [← mem_names_simplify unbound] at absent
      rw [besideDivisions_of_absent present, besideDivisions_of_absent absent]

/-! ### Equations -/

theorem Expr.names_of_mem_besideDivisions {α : Type} {x : String} {e d : Expr α}
    (beside : d ∈ e.besideDivisions x) : ∀ y ∈ d.names, y ∈ e.names := by
  induction e with
  | lit v => cases beside
  | var y => cases beside
  | node o op l r ihl ihr =>
    intro y member
    rw [names_node, List.mem_append]
    unfold besideDivisions at beside
    split at beside
    · rcases List.mem_append.mp beside with here | deeper
      · split at here
        · exact Or.inr (List.mem_singleton.mp here ▸ member)
        · cases here
      · exact Or.inl (ihl deeper y member)
    · split at beside
      · rcases List.mem_append.mp beside with here | deeper
        · split at here
          · exact Or.inl (List.mem_singleton.mp here ▸ member)
          · cases here
        · exact Or.inr (ihr deeper y member)
      · cases beside

namespace Sides

def besideDivisions {α : Type} (x : String) (t : Sides α) : List (Expr α) :=
  t.lhs.besideDivisions x ++ t.rhs.besideDivisions x

theorem names_of_mem_besideDivisions {α : Type} {x : String} {t : Sides α} {d : Expr α}
    (beside : d ∈ t.besideDivisions x) : ∀ y ∈ d.names, y ∈ t.names := by
  intro y member
  rw [names_eq]
  rcases List.mem_append.mp beside with left | right
  · exact List.mem_append_left _ (Expr.names_of_mem_besideDivisions left y member)
  · exact List.mem_append_right _ (Expr.names_of_mem_besideDivisions right y member)

def Evaluates (env : Env (Exact pow)) (t : Sides (Exact pow)) : Prop :=
  ∃ a b, t.lhs.eval env = .ok (Exact.number a) ∧ t.rhs.eval env = .ok (Exact.number b)

def Satisfied (env : Env (Exact pow)) (t : Sides (Exact pow)) : Prop :=
  ∃ a, t.lhs.eval env = .ok (Exact.number a) ∧ t.rhs.eval env = .ok (Exact.number a)

end Sides

namespace Equation

theorem accepted_of_solved {α : Type} [Arithmetic α] {env : Env α} {x : String} {lhs rhs : Expr α}
    {v : α} (solved : ((between lhs rhs).solving env x).outcome = .ok v) :
    env x = none ∧ (Sides.mk lhs rhs).names.count x = 1 ∧
      ∀ y ∈ (Sides.mk lhs rhs).names, y ≠ x → (env y).isSome := by
  have decided := solving_decided env x lhs rhs
  rw [solved] at decided
  unfold Sides.Decides at decided
  split at decided
  · obtain ⟨fault, -, failed⟩ := decided
    cases failed
  · rename_i accepted
    simp only [not_or, Option.not_isSome_iff_eq_none, ne_eq, Decidable.not_not] at accepted
    refine ⟨accepted.1, accepted.2, ?_⟩
    split at decided
    · cases decided
    · split at decided
      · obtain ⟨y, -, -, -, failed⟩ := decided
        cases failed
      · rename_i complete
        intro y member different
        cases bound : env y with
        | some v => rfl
        | none => exact absurd ⟨y, member, by simp [bound], different⟩ complete

/-- With the solution put in, both sides have the same value or, with a zero beside a division,
not both of them have one. -/
theorem holds_of_solved (agrees : (Exact.assignment s).Extends env) {x : String}
    {lhs rhs : Expr (Exact pow)}
    (solved : ((between lhs rhs).solving env x).outcome = .ok (Exact.number (s x))) :
    if some 0 ∈ ((Sides.mk lhs rhs).besideDivisions x).map (Expr.valueAt? s) then
      ¬ (Sides.mk lhs rhs).Defined s
    else (Sides.mk lhs rhs).Holds s := by
  obtain ⟨unbound, once, -⟩ := accepted_of_solved solved
  obtain ⟨side, path, unknown, other, arranged, -, absent, course⟩ := solving_course unbound once
  obtain ⟨b, opposite, value⟩ := course.valueAt?_unknown agrees solved
  have same (e : Expr (Exact pow)) : (e.simplify env).valueAt? s = e.valueAt? s :=
    Expr.valueAt?_congr (Expr.eval_simplify agrees e)
  have beside : ((Sides.mk lhs rhs).besideDivisions x).map (Expr.valueAt? s) =
      (unknown.besideDivisions x).map (Expr.valueAt? s) := by
    have nothing := Expr.besideDivisions_of_absent absent
    rw [Sides.besideDivisions, List.map_append, ← Expr.besideDivisions_simplify agrees unbound lhs,
      ← Expr.besideDivisions_simplify agrees unbound rhs]
    cases side <;> cases arranged <;> simp [nothing]
  rw [beside]
  have defined : (Sides.mk lhs rhs).Defined s ↔ (Solving.arrange side unknown other).Defined s := by
    rw [arranged]
    simp only [Sides.Defined, same]
  have holds : (Sides.mk lhs rhs).Holds s ↔ (Solving.arrange side unknown other).Holds s := by
    rw [arranged]
    simp only [Sides.Holds, same]
  rw [defined, holds]
  split
  · rename_i zero
    rw [if_pos zero] at value
    intro both
    obtain ⟨a, -, some_value, -⟩ := both.values
    rw [value] at some_value
    cases some_value
  · rename_i nonzero
    rw [if_neg nonzero] at value
    exact (Sides.holds_arrange value opposite).mpr rfl

theorem eval_update {b : String → Option ℚ} {x : String} {q : ℚ} {e : Expr (Exact pow)}
    (agrees : (Exact.assignment s : Env (Exact pow)).Extends (Exact.bindings b)) (value : s x = q)
    (bound : ∀ y ∈ e.names, y ≠ x → (b y).isSome) :
    e.eval (Exact.bindings (Function.update b x (some q))) = .ok ⟨e.valueAt? s⟩ := by
  let env : Env (Exact pow) := Exact.bindings (Function.update b x (some q))
  have wide : (Exact.assignment s).Extends env := by
    intro y v given
    by_cases same : y = x
    · subst same
      simp only [env, Exact.bindings, Function.update_self] at given
      rw [Exact.assignment, value]
      exact given
    · simp only [env, Exact.bindings, Function.update_of_ne same] at given
      exact agrees y v given
  have complete : ∀ y ∈ e.names, (env y).isSome := by
    intro y member
    by_cases same : y = x
    · simp [env, Exact.bindings, same]
    · simpa [env, Exact.bindings, same] using bound y member same
  obtain ⟨v, found⟩ := e.eval_ok complete
  have there := Expr.eval_extends wide found
  rw [Expr.eval_assignment] at there
  rw [found, there]

/-- A number that comes out for `x` satisfies the equation exactly if no operand beside a division
above `x` is zero, and whenever both sides have values with it. -/
theorem solution_satisfies_iff {b : String → Option ℚ} {x : String} {lhs rhs : Expr (Exact pow)}
    {q : ℚ}
    (solved : ((between lhs rhs).solving (Exact.bindings b) x).outcome = .ok (Exact.number q)) :
    let env : Env (Exact pow) := Exact.bindings (Function.update b x (some q))
    let t := Sides.mk lhs rhs
    (t.Satisfied env ↔ ∀ d ∈ t.besideDivisions x, d.eval env ≠ .ok (Exact.number 0)) ∧
      (t.Evaluates env → t.Satisfied env) := by
  intro env t
  obtain ⟨unbound, -, bound⟩ := accepted_of_solved solved
  let s : String → ℚ := Function.update (fun y => (b y).getD 0) x q
  have value : s x = q := Function.update_self ..
  have agrees : (Exact.assignment s : Env (Exact pow)).Extends (Exact.bindings b) := by
    intro y v given
    have other : y ≠ x := by
      rintro rfl
      rw [unbound] at given
      cases given
    obtain ⟨p, here, rfl⟩ := Option.map_eq_some_iff.mp given
    simp [Exact.assignment, s, other, here]
  have values {e : Expr (Exact pow)} (inside : ∀ y ∈ e.names, y ∈ t.names) :
      e.eval env = .ok ⟨e.valueAt? s⟩ :=
    eval_update agrees value fun y member other => by
      simpa [Exact.bindings] using bound y (inside y member) other
  have left := values (e := lhs) fun y member => by simp [t, Sides.names_eq, member]
  have right := values (e := rhs) fun y member => by simp [t, Sides.names_eq, member]
  have evaluates : t.Evaluates env ↔ t.Defined s := by
    simp [Sides.Evaluates, Sides.Defined, t, left, right, Exact.number, Option.isSome_iff_exists]
  have satisfied : t.Satisfied env ↔ t.Holds s := by
    simp [Sides.Satisfied, Sides.Holds, t, left, right, Exact.number]
  have zero : some 0 ∈ (t.besideDivisions x).map (Expr.valueAt? s) ↔
      ¬ ∀ d ∈ t.besideDivisions x, d.eval env ≠ .ok (Exact.number 0) := by
    rw [List.mem_map]
    push Not
    apply exists_congr
    intro d
    apply and_congr_right
    intro beside
    rw [values (Sides.names_of_mem_besideDivisions beside)]
    simp [Exact.number]
  have outcome := holds_of_solved agrees (value.symm ▸ solved)
  rw [evaluates, satisfied]
  split at outcome
  · rename_i division
    have undefined : ¬ t.Defined s := outcome
    have unequal : ¬ t.Holds s := by
      rintro ⟨a, first, second⟩
      exact undefined ⟨by simp [first], by simp [second]⟩
    exact ⟨iff_of_false unequal (zero.mp division), fun both => absurd both undefined⟩
  · rename_i division
    have equal : t.Holds s := outcome
    exact ⟨iff_of_true equal (not_not.mp (zero.not.mp division)), fun _ => equal⟩

/-- `12 / (x + 1) - y = 8` with `y = 4`: beside the division stands `12`. -/
theorem solution_satisfies_quotient :
    let pow : ℚ → ℚ → ℚ := fun a b => a ^ b.num
    let number (q : ℚ) : Expr (Exact pow) := .lit (Exact.number q)
    let lhs : Expr (Exact pow) := .node .parsed .sub
      (.node .parsed .div (number 12) (.node .parsed .add (.var "x") (number 1))) (.var "y")
    let b : String → Option ℚ := fun z => if z = "y" then some 4 else none
    let t := Sides.mk lhs (number 8)
    ((between lhs (number 8)).solving (Exact.bindings b) "x").outcome = .ok (Exact.number 0) ∧
      t.besideDivisions "x" = [number 12] ∧
      t.Satisfied (Exact.bindings (Function.update b "x" (some 0))) := by
  intro pow number lhs b t
  have solved : ((between lhs (number 8)).solving (Exact.bindings b) "x").outcome =
      .ok (Exact.number 0) := by decide +kernel
  have beside : t.besideDivisions "x" = [number 12] := rfl
  refine ⟨solved, beside, (solution_satisfies_iff solved).1.mpr ?_⟩
  intro d member
  rw [show Sides.besideDivisions "x" ⟨lhs, number 8⟩ = [number 12] from rfl] at member
  obtain rfl := List.mem_singleton.mp member
  decide +kernel

/-- `0 / x = 5` and `x / 0 = 5` have no solution, and `0` comes out for both without a division by
zero. -/
theorem zero_solves_quotients :
    let pow : ℚ → ℚ → ℚ := fun a b => a ^ b.num
    let number (q : ℚ) : Expr (Exact pow) := .lit (Exact.number q)
    let below : Expr (Exact pow) := .node .parsed .div (number 0) (.var "x")
    let above : Expr (Exact pow) := .node .parsed .div (.var "x") (number 0)
    let b : String → Option ℚ := fun _ => none
    let env : Env (Exact pow) := Exact.bindings (Function.update b "x" (some 0))
    ∀ lhs ∈ [below, above],
      ((between lhs (number 5)).solving (Exact.bindings b) "x").outcome = .ok (Exact.number 0) ∧
        ¬ (Sides.mk lhs (number 5)).Satisfied env := by
  intro pow number below above b env lhs member
  have undefined : lhs.eval env = .ok ⟨none⟩ := by
    revert lhs
    decide +kernel
  refine ⟨?_, ?_⟩
  · revert lhs
    decide +kernel
  · rintro ⟨a, left, -⟩
    rw [undefined] at left
    cases left

end Equation

end Equate
