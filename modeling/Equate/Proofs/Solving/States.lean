import Equate.Proofs.Solving.Resumption

/-!
# The states of a run

A run simplifies both sides, and from then on folds no more than the new root of one of them. It
need not do more: at the start of every step and at the end neither side has anything left to fold
(`isolate_states`). A run that succeeds leaves the unknown alone on one side and its value, as a
single leaf, on the other (`sides_of_solved`).
-/

namespace Equate

variable {α : Type} [Arithmetic α] {env : Env α}

namespace Sides

def simplify (env : Env α) (s : Sides α) : Sides α := ⟨s.lhs.simplify env, s.rhs.simplify env⟩

structure Stuck (env : Env α) (s : Sides α) : Prop where
  left : s.lhs.simplify env = s.lhs
  right : s.rhs.simplify env = s.rhs

theorem stuck_simplify (env : Env α) (s : Sides α) : (s.simplify env).Stuck env :=
  ⟨(s.lhs.simplify_folded env).simplify, (s.rhs.simplify_folded env).simplify⟩

theorem stuck_arrange {side : Side} {unknown other : Expr α} :
    (Solving.arrange side unknown other).Stuck env ↔
      unknown.simplify env = unknown ∧ other.simplify env = other := by
  cases side with
  | left => exact ⟨fun stuck => ⟨stuck.1, stuck.2⟩, fun ⟨left, right⟩ => ⟨left, right⟩⟩
  | right => exact ⟨fun stuck => ⟨stuck.2, stuck.1⟩, fun ⟨left, right⟩ => ⟨right, left⟩⟩

end Sides

namespace Solving

/-! ### One step -/

section Moved

variable {other operand : Expr α} (stuckOther : other.simplify env = other)
  (stuckOperand : operand.simplify env = operand)
include stuckOther stuckOperand

/-- Where nothing is left to fold in what is put together, folding the root folds all. -/
theorem moved_eq (applied : Op) (place : Slot) :
    moved env applied place other operand = (wrap applied place other operand).simplify env := by
  rw [← moved_simplify, stuckOther, stuckOperand]

theorem simplify_moved (applied : Op) (place : Slot) :
    (moved env applied place other operand).simplify env =
      moved env applied place other operand := by
  rw [moved_eq stuckOther stuckOperand]
  exact (Expr.simplify_folded env _).simplify

theorem moved_of_eval {applied : Op} {place : Slot} {v : α}
    (value : (moved env applied place other operand).eval env = .ok v) :
    moved env applied place other operand = .lit v := by
  rw [moved_eq stuckOther stuckOperand] at value ⊢
  rw [Expr.eval_simplify (Env.extends_self env)] at value
  cases place <;> exact Expr.simplify_node_of_eval_ok value

end Moved

theorem simplify_pick {o : Origin} {op : Op} {l r : Expr α}
    (stuck : (Expr.node o op l r).simplify env = .node o op l r) (slot : Slot) :
    (slot.pick l r).simplify env = slot.pick l r ∧
      (slot.flip.pick l r).simplify env = slot.flip.pick l r := by
  obtain ⟨left, right⟩ := Expr.simplify_operands stuck
  cases slot with
  | left => exact ⟨left, right⟩
  | right => exact ⟨right, left⟩

theorem stuck_moved {side : Side} {o : Origin} {op : Op} {l r other : Expr α}
    (stuck : (arrange side (.node o op l r) other).Stuck env) (applied : Op) (place slot : Slot) :
    (arrange side (slot.pick l r)
      (moved env applied place other (slot.flip.pick l r))).Stuck env := by
  obtain ⟨stuckUnknown, stuckOther⟩ := Sides.stuck_arrange.mp stuck
  obtain ⟨stuckNext, stuckOperand⟩ := simplify_pick stuckUnknown slot
  exact Sides.stuck_arrange.mpr ⟨stuckNext, simplify_moved stuckOther stuckOperand applied place⟩

/-! ### Courses -/

section Course

variable {x : String} {side : Side} {path : List Slot} {unknown other : Expr α} {run : Solving α}
  (course : Course env x side path unknown other run)
  (simplified : (arrange side unknown other).Stuck env)
include course simplified

theorem Course.stuck : ∀ s ∈ run.states, s.Stuck env := by
  induction course with
  | alone other =>
    intro s member
    rw [List.mem_singleton.mp member]
    exact simplified
  | blocked leads lasting =>
    intro s member
    rw [List.mem_singleton.mp member]
    exact simplified
  | @step o op applied l r other slot place path run leads undone rest ih =>
    intro s member
    rcases List.mem_cons.mp member with rfl | later
    · exact simplified
    · exact ih (stuck_moved simplified applied place slot) s later

/-- What is left beside the unknown is what stood there, if no operator was moved, and a literal
otherwise. -/
theorem Course.solution {v : α} (solved : run.outcome = .ok v) :
    ∃ leaf : Expr α, run.sides = arrange side (.var x) leaf ∧ leaf.isLeaf = true ∧
      leaf.eval env = .ok v ∧ (leaf = .lit v ∨ run.steps = [] ∧ leaf = other) := by
  induction course with
  | alone other =>
    obtain ⟨-, stuckOther⟩ := Sides.stuck_arrange.mp simplified
    have leaf : (other.simplify env).isLeaf = true := Expr.isLeaf_simplify solved
    rw [stuckOther] at leaf
    exact ⟨other, rfl, leaf, solved, Or.inr ⟨rfl, rfl⟩⟩
  | blocked leads lasting => cases solved
  | @step o op applied l r other slot place path run leads undone rest ih =>
    obtain ⟨leaf, sides, isLeaf, value, last⟩ :=
      ih (stuck_moved simplified applied place slot) solved
    refine ⟨leaf, sides, isLeaf, value, Or.inl ?_⟩
    rcases last with literal | ⟨-, same⟩
    · exact literal
    · obtain ⟨stuckUnknown, stuckOther⟩ := Sides.stuck_arrange.mp simplified
      rw [same] at value ⊢
      exact moved_of_eval stuckOther (simplify_pick stuckUnknown slot).2 value

end Course

/-! ### Runs -/

/-- The states of a run follow each other without a gap, from the simplified sides on, and in none
of them is anything left to fold. -/
theorem isolate_states (env : Env α) (x : String) (s : Sides α) :
    let run := isolate env x s
    run.states = s.simplify env :: run.steps.map (·.after) ∧ ∀ t ∈ run.states, t.Stuck env := by
  intro run
  have stuck := s.stuck_simplify env
  rcases isolate_course env x s.lhs s.rhs with ⟨-, -, failed⟩ | course
  · have failed : run = stop (.notFound x) (s.simplify env) := failed
    rw [failed]
    refine ⟨rfl, fun t member => ?_⟩
    rw [List.mem_singleton.mp member]
    exact stuck
  · obtain ⟨side, path, unknown, other, -, arranged, course⟩ := course
    have arranged : arrange side unknown other = s.simplify env := arranged
    rw [← arranged] at stuck ⊢
    exact ⟨course.states_eq, course.stuck stuck⟩

end Solving

namespace Equation

variable {x : String} {eq : Equation α} {v : α} (solved : (eq.solving env x).outcome = .ok v)
include solved

theorem solving_of_solved : eq.solving env x = Solving.isolate env x eq.sides := by
  cases checked : checkTarget env x eq.occurrences with
  | error fault =>
    rw [(solve_of_refused eq checked).1] at solved
    cases solved
  | ok _ => exact (solve_of_accepted eq.sides checked).1

theorem sides_of_solved :
    ∃ side leaf, (eq.solving env x).sides = Solving.arrange side (.var x) leaf ∧
      leaf.isLeaf = true ∧ leaf.eval env = .ok v ∧
      ((eq.solving env x).steps ≠ [] → leaf = .lit v) := by
  have isolated := solving_of_solved solved
  rw [isolated] at solved ⊢
  rcases Solving.isolate_course env x eq.sides.lhs eq.sides.rhs with ⟨-, -, failed⟩ | course
  · rw [show Solving.isolate env x eq.sides = _ from failed] at solved
    cases solved
  · obtain ⟨side, path, unknown, other, -, arranged, course⟩ := course
    have stuck := eq.sides.stuck_simplify env
    rw [← show Solving.arrange side unknown other = eq.sides.simplify env from arranged] at stuck
    obtain ⟨leaf, sides, isLeaf, value, last⟩ := course.solution stuck solved
    refine ⟨side, leaf, sides, isLeaf, value, fun moved => ?_⟩
    exact last.resolve_right fun ⟨none_moved, _⟩ => moved none_moved

end Equation

end Equate
