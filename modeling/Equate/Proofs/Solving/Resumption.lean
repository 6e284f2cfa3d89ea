import Equate.Proofs.Expr.Folded
import Equate.Proofs.Solving.Outcome

/-!
# Runs taken up again

Moving operators and folding do not get in each other's way: a run leaves what is left of the sides
with all operators moved and nothing folded, once these are folded (`isolate_eq`). So a run that
stopped, for want of a value or for any other reason, can be taken up again with more values, and
comes to the same sides and the same outcome as one that has them from the start
(`solve_resumed`).
-/

namespace Equate

variable {α : Type}

namespace Solving

/-! ### Moving without folding -/

/-- The two sides with the operators on a path moved from the first to the other, up to the first
that has no inverse. -/
def bringOut : List Slot → (unknown other : Expr α) → Expr α × Expr α
  | slot :: path, .node o op l r, other =>
    match op.undo slot with
    | some (applied, place) =>
      bringOut path (slot.pick l r) (wrap applied place other (slot.flip.pick l r))
    | none => (.node o op l r, other)
  | _, unknown, other => (unknown, other)

/-- The forms in which the unknown's side is left: alone, or with a power at the root. -/
inductive BroughtOut (x : String) : List Slot → Expr α → Prop where
  | alone : BroughtOut x [] (.var x)
  | power {o : Origin} {op : Op} {l r : Expr α} {slot : Slot} {path : List Slot}
      (leads : (Expr.node o op l r).pathTo? x = some (slot :: path))
      (lasting : op.undo slot = none) : BroughtOut x (slot :: path) (.node o op l r)

theorem broughtOut_bringOut {x : String} {path : List Slot} {unknown : Expr α}
    (found : unknown.pathTo? x = some path) (other : Expr α) :
    ∃ left, BroughtOut x left (bringOut path unknown other).1 := by
  induction path generalizing unknown other with
  | nil =>
    obtain rfl := Expr.eq_var_of_pathTo? found
    exact ⟨[], .alone⟩
  | cons slot path ih =>
    obtain ⟨o, op, l, r, rfl, next, -⟩ := Expr.eq_node_of_pathTo? found
    unfold bringOut
    cases undone : op.undo slot with
    | none => exact ⟨_, .power found undone⟩
    | some result => exact ih next _

theorem not_mem_names_bringOut {x : String} {path : List Slot} {unknown other : Expr α}
    (found : unknown.pathTo? x = some path) (once : unknown.names.count x = 1)
    (absent : x ∉ other.names) : x ∉ (bringOut path unknown other).2.names := by
  induction path generalizing unknown other with
  | nil =>
    obtain rfl := Expr.eq_var_of_pathTo? found
    exact absent
  | cons slot path ih =>
    obtain ⟨o, op, l, r, rfl, next, -⟩ := Expr.eq_node_of_pathTo? found
    unfold bringOut
    cases undone : op.undo slot with
    | none => exact absent
    | some result =>
      obtain ⟨onceNext, absentOperand⟩ := Expr.count_pick once (Expr.mem_names_of_pathTo? next)
      refine ih next onceNext ?_
      cases result.2 <;> simp [wrap, absent, absentOperand]

section Ended

variable {x : String} {path : List Slot} {unknown : Expr α} (ended : BroughtOut x path unknown)
include ended

theorem BroughtOut.pathTo? : unknown.pathTo? x = some path := by
  cases ended with
  | alone => simp [Expr.pathTo?]
  | power leads lasting => exact leads

theorem BroughtOut.bringOut (other : Expr α) : bringOut path unknown other = (unknown, other) := by
  cases ended with
  | alone => rfl
  | power leads lasting => simp only [Solving.bringOut, lasting]

theorem BroughtOut.simplify [Arithmetic α] {env : Env α} (unbound : env x = none) :
    BroughtOut x path (unknown.simplify env) := by
  cases ended with
  | alone => exact .alone
  | power leads lasting =>
    have folded := Expr.simplify_node_of_unbound (Expr.mem_names_of_pathTo? leads) unbound
    rw [← Expr.pathTo?_simplify unbound, folded] at leads
    rw [folded]
    exact .power leads lasting

end Ended

variable [Arithmetic α] {env : Env α} {x : String}

def ending (env : Env α) (x : String) (unknown other : Expr α) : Except Failure α :=
  match unknown with
  | .node _ op _ _ => .error (.expression (.noInverse x op))
  | _ => other.eval env

theorem ending_simplify {wide : Env α} (extended : wide.Extends env) (unbound : env x = none)
    {path : List Slot} {unknown : Expr α} (ended : BroughtOut x path unknown) (other : Expr α) :
    ending wide x (unknown.simplify env) (other.simplify env) = ending wide x unknown other := by
  cases ended with
  | alone => exact Expr.eval_simplify extended other
  | power leads lasting =>
    rw [Expr.simplify_node_of_unbound (Expr.mem_names_of_pathTo? leads) unbound]
    rfl

/-! ### Runs -/

theorem moved_simplify (applied : Op) (place : Slot) (other operand : Expr α) :
    moved env applied place (other.simplify env) (operand.simplify env) =
      (wrap applied place other operand).simplify env := by
  cases place <;> rfl

theorem pick_simplify (slot : Slot) (l r : Expr α) :
    slot.pick (l.simplify env) (r.simplify env) = (slot.pick l r).simplify env := by
  cases slot <;> rfl

/-- On simplified sides a course comes to what moving alone comes to, simplified. -/
theorem Course.eq_bringOut (unbound : env x = none) {side : Side} {path : List Slot}
    {unknown other : Expr α} {run : Solving α} (found : unknown.pathTo? x = some path)
    (course : Course env x side path (unknown.simplify env) (other.simplify env) run) :
    let ends := bringOut path unknown other
    run.sides = arrange side (ends.1.simplify env) (ends.2.simplify env) ∧
      run.outcome = ending env x ends.1 ends.2 := by
  induction path generalizing unknown other run with
  | nil =>
    obtain rfl := Expr.eq_var_of_pathTo? found
    cases course with
    | alone => exact ⟨rfl, Expr.eval_simplify (Env.extends_self env) other⟩
  | cons slot path ih =>
    obtain ⟨o, op, l, r, rfl, next, -⟩ := Expr.eq_node_of_pathTo? found
    have folded := Expr.simplify_node_of_unbound (Expr.mem_names_of_pathTo? found) unbound
    rw [folded] at course
    unfold bringOut
    cases course with
    | blocked leads lasting =>
      simp only [lasting]
      exact ⟨by rw [folded]; rfl, rfl⟩
    | step leads undone rest =>
      simp only [undone]
      rw [pick_simplify, pick_simplify, moved_simplify] at rest
      exact ih next rest

theorem Course.steps_of_broughtOut {side : Side} {path : List Slot} {unknown other : Expr α}
    {run : Solving α} (ended : BroughtOut x path unknown)
    (course : Course env x side path unknown other run) : run.steps = [] := by
  cases course with
  | alone => rfl
  | blocked => rfl
  | step leads undone rest =>
    cases ended with
    | power leads lasting =>
      rw [lasting] at undone
      cases undone

omit [Arithmetic α] in
theorem arrange_unique {side side' : Side} {unknown unknown' other other' : Expr α}
    (same : arrange side' unknown' other' = arrange side unknown other)
    (present : x ∈ unknown'.names) (absent : x ∉ other.names) :
    side' = side ∧ unknown' = unknown ∧ other' = other := by
  cases side <;> cases side' <;> cases same
  case left.left => exact ⟨rfl, rfl, rfl⟩
  case right.right => exact ⟨rfl, rfl, rfl⟩
  case left.right => exact absurd present absent
  case right.left => exact absurd present absent

/-- A run takes its course on the side of the unknown, wherever that is. -/
theorem course_of_isolate (unbound : env x = none) (side : Side) {path : List Slot}
    {unknown other : Expr α} (found : unknown.pathTo? x = some path) (absent : x ∉ other.names) :
    Course env x side path (unknown.simplify env) (other.simplify env)
      (isolate env x (arrange side unknown other)) := by
  let sides := arrange side unknown other
  have simplified : Sides.mk (sides.lhs.simplify env) (sides.rhs.simplify env) =
      arrange side (unknown.simplify env) (other.simplify env) := by
    cases side <;> rfl
  have absent' : x ∉ (other.simplify env).names := by
    rwa [Expr.mem_names_simplify unbound]
  rcases isolate_course env x sides.lhs sides.rhs with ⟨left, right, -⟩ | course
  · have present := (Expr.mem_names_simplify unbound).mpr (Expr.mem_names_of_pathTo? found)
    cases side with
    | left => exact absurd present left
    | right => exact absurd present right
  · obtain ⟨side', path', unknown', other', found', arranged, course⟩ := course
    obtain ⟨rfl, rfl, rfl⟩ := arrange_unique (arranged.trans simplified)
      (Expr.mem_names_of_pathTo? found') absent'
    rw [Expr.pathTo?_simplify unbound, found] at found'
    cases found'
    exact course

theorem isolate_eq (unbound : env x = none) (side : Side) {path : List Slot}
    {unknown other : Expr α} (found : unknown.pathTo? x = some path) (absent : x ∉ other.names) :
    let ends := bringOut path unknown other
    let run := isolate env x (arrange side unknown other)
    run.sides = arrange side (ends.1.simplify env) (ends.2.simplify env) ∧
      run.outcome = ending env x ends.1 ends.2 :=
  (course_of_isolate unbound side found absent).eq_bringOut unbound found

/-- A run on the sides that another one left moves nothing any more. It comes to what it would have
come to without the other one, if that had fewer values. -/
theorem isolate_again {few : Env α} (wider : env.Extends few) (unbound : env x = none) (side : Side)
    {path : List Slot} {unknown other : Expr α} (found : unknown.pathTo? x = some path)
    (once : unknown.names.count x = 1) (absent : x ∉ other.names) :
    let first := isolate few x (arrange side unknown other)
    let again := isolate env x first.sides
    let direct := isolate env x (arrange side unknown other)
    again.steps = [] ∧ again.sides = direct.sides ∧ again.outcome = direct.outcome := by
  intro first again direct
  have unboundFew := wider.eq_none unbound
  obtain ⟨left, ended⟩ := broughtOut_bringOut found other
  have absentEnd := not_mem_names_bringOut found once absent
  obtain ⟨sidesFirst, -⟩ := isolate_eq unboundFew side found absent
  obtain ⟨sidesDirect, outcomeDirect⟩ := isolate_eq unbound side found absent
  generalize bringOut path unknown other = ends
    at ended absentEnd sidesFirst sidesDirect outcomeDirect
  obtain ⟨left, right⟩ := ends
  have endedFew := ended.simplify unboundFew
  have absentFew : x ∉ (right.simplify few).names := by
    rwa [Expr.mem_names_simplify unboundFew]
  have course := course_of_isolate unbound side endedFew.pathTo? absentFew
  obtain ⟨sidesAgain, outcomeAgain⟩ := isolate_eq unbound side endedFew.pathTo? absentFew
  have folded (e : Expr α) : (e.simplify few).simplify env = e.simplify env :=
    ((e.simplify_folded few).mono wider).simplify
  have again_eq : again = isolate env x
      (arrange side (left.simplify few) (right.simplify few)) := by
    simp only [again, first, sidesFirst]
  rw [again_eq]
  refine ⟨course.steps_of_broughtOut (endedFew.simplify unbound), ?_, ?_⟩
  · rw [sidesAgain, sidesDirect, endedFew.bringOut, folded, folded]
  · rw [outcomeAgain, outcomeDirect, endedFew.bringOut]
    exact ending_simplify wider unboundFew ended right

/-- A solution that came out with some of the values comes out with more of them, on the same
sides. -/
theorem isolate_of_solved {few : Env α} (wider : env.Extends few) (unbound : env x = none)
    (side : Side) {path : List Slot} {unknown other : Expr α}
    (found : unknown.pathTo? x = some path) (absent : x ∉ other.names) {v : α}
    (solved : (isolate few x (arrange side unknown other)).outcome = .ok v) :
    (isolate env x (arrange side unknown other)).sides =
        (isolate few x (arrange side unknown other)).sides ∧
      (isolate env x (arrange side unknown other)).outcome = .ok v := by
  have unboundFew := wider.eq_none unbound
  obtain ⟨left, ended⟩ := broughtOut_bringOut found other
  obtain ⟨sidesFew, outcomeFew⟩ := isolate_eq unboundFew side found absent
  obtain ⟨sides, outcome⟩ := isolate_eq unbound side found absent
  rw [sides, sidesFew, outcome]
  rw [outcomeFew] at solved
  generalize bringOut path unknown other = ends at ended solved
  obtain ⟨unknown, other⟩ := ends
  cases ended with
  | power leads lasting => cases solved
  | alone =>
    have value : other.eval few = .ok v := solved
    have leaf : (other.simplify few).simplify env = other.simplify few :=
      Expr.simplify_of_isLeaf (Expr.isLeaf_simplify value)
    have folded : (other.simplify few).simplify env = other.simplify env :=
      ((other.simplify_folded few).mono wider).simplify
    refine ⟨?_, Expr.eval_extends wider value⟩
    rw [← folded, leaf]
    rfl

end Solving

/-! ### Equations -/

namespace Equation

theorem exists_arrange {x : String} {lhs rhs : Expr α}
    (once : (Sides.mk lhs rhs).names.count x = 1) :
    ∃ side path unknown other, Sides.mk lhs rhs = Solving.arrange side unknown other ∧
      unknown.pathTo? x = some path ∧ unknown.names.count x = 1 ∧ x ∉ other.names := by
  have total : lhs.names.count x + rhs.names.count x = 1 := by
    rwa [Sides.names_eq, List.count_append] at once
  by_cases present : x ∈ lhs.names
  · have counted := List.count_pos_iff.mpr present
    have found := mt Expr.pathTo?_eq_none_iff.mp (not_not_intro present)
    obtain ⟨path, found⟩ := Option.ne_none_iff_exists'.mp found
    exact ⟨.left, path, lhs, rhs, rfl, found, by omega, List.count_eq_zero.mp (by omega)⟩
  · have none_left := List.count_eq_zero.mpr present
    have counted : rhs.names.count x = 1 := by omega
    have there : x ∈ rhs.names := List.count_pos_iff.mp (by omega)
    have found := mt Expr.pathTo?_eq_none_iff.mp (not_not_intro there)
    obtain ⟨path, found⟩ := Option.ne_none_iff_exists'.mp found
    exact ⟨.right, path, rhs, lhs, rfl, found, counted, present⟩

variable [Arithmetic α] {env : Env α} {x : String}

theorem solve_of_refused (eq : Equation α) {fault : ExprError}
    (refused : checkTarget env x eq.occurrences = .error fault) :
    eq.solving env x = Solving.stop fault eq.sides ∧
      eq.solve env x = (eq, .error (.expression fault)) := by
  have stopped : eq.solving env x = Solving.stop fault eq.sides := by rw [solving, refused]
  refine ⟨stopped, ?_⟩
  simp only [solve, stopped]
  rfl

theorem solve_of_accepted (sides : Sides α) {occurrences : List (String × Nat)}
    (accepted : checkTarget env x occurrences = .ok ()) :
    (Equation.mk sides occurrences).solving env x = Solving.isolate env x sides ∧
      (Equation.mk sides occurrences).solve env x =
        (⟨(Solving.isolate env x sides).sides, occurrences⟩,
          (Solving.isolate env x sides).outcome) := by
  simp only [solve, solving, accepted, and_self]

/-- Solving again for the same unknown, with the same values and perhaps more, leaves the equation
and gives the outcome that solving with these values at once would have, whatever came of the first
run. No operator is moved any more, and nothing changes where there was a solution. -/
theorem solve_resumed (lhs rhs : Expr α) (x : String) {few env : Env α} (wider : env.Extends few)
    (unbound : env x = none) :
    let eq := between lhs rhs
    let first := (eq.solve few x).1
    first.solve env x = eq.solve env x ∧ (first.solving env x).steps = [] ∧
      ∀ v, (eq.solve few x).2 = .ok v → first.solve env x = (first, .ok v) := by
  intro eq first
  have alike : checkTarget few x eq.occurrences = checkTarget env x eq.occurrences := by
    simp only [checkTarget, unbound, wider.eq_none unbound]
  by_cases once : (Sides.mk lhs rhs).names.count x = 1
  · have accepted : checkTarget env x eq.occurrences = .ok () := checkTarget_between unbound once
    obtain ⟨side, path, unknown, other, arranged, found, onceThere, absent⟩ := exists_arrange once
    have whole : eq = ⟨Solving.arrange side unknown other, eq.occurrences⟩ := by
      rw [← arranged]
      rfl
    generalize eq.occurrences = occurrences at alike accepted whole
    obtain ⟨steps, sides, outcome⟩ :=
      Solving.isolate_again wider unbound side found onceThere absent
    have again (s : Sides α) := solve_of_accepted s accepted
    have before (s : Sides α) := solve_of_accepted s (alike.trans accepted)
    simp only [first, whole, again, before, sides, outcome, steps, true_and]
    intro v solved
    obtain ⟨kept, value⟩ := Solving.isolate_of_solved wider unbound side found absent solved
    rw [kept, value]
  · obtain ⟨fault, -, refused⟩ : ∃ fault : ExprError, fault.family = .unsolvable ∧
        checkTarget env x eq.occurrences = .error fault := checkTarget_refused (Or.inr once)
    have again := solve_of_refused eq refused
    have before := solve_of_refused eq (alike.trans refused)
    simp only [first, before.2, again.2, true_and]
    constructor
    · rw [again.1]
      rfl
    · intro v solved
      cases solved

end Equation

end Equate
