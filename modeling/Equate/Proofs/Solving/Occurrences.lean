import Equate.Proofs.Expr.Folded
import Equate.Proofs.Solving.Outcome
import Equate.Proofs.Solving.Stages

/-!
# Occurrences are conserved

An equation counts its variables when it is formed and never again, while runs fold parts of it
away and move others from side to side. `history_conserves`: whatever calls were made, finished or
not, no variable occurs more often than before, and one that had no value in any of the calls occurs
exactly as often. So the old counts and those of the equation as it stands decide alike about such a
target (`checkTarget_tally`).
-/

namespace Equate

variable {α : Type} {env : Env α}

/-! ### Counts -/

namespace Sides

/-- What the occurrences on two sides have to do with those before. -/
structure Conserves (env : Env α) (s t : Sides α) : Prop where
  no_more : ∀ y, t.names.count y ≤ s.names.count y
  as_many : ∀ y, env y = none → t.names.count y = s.names.count y

theorem Conserves.refl (s : Sides α) : s.Conserves env s where
  no_more _ := Nat.le_refl _
  as_many _ _ := rfl

theorem Conserves.trans {s t u : Sides α} (first : s.Conserves env t) (second : t.Conserves env u) :
    s.Conserves env u where
  no_more y := Nat.le_trans (second.no_more y) (first.no_more y)
  as_many y unbound := (second.as_many y unbound).trans (first.as_many y unbound)

theorem Conserves.mem_names {s t : Sides α} (conserves : s.Conserves env t) {y : String}
    (member : y ∈ t.names) : y ∈ s.names := by
  have counted := List.count_pos_iff.mpr member
  exact List.count_pos_iff.mp (Nat.lt_of_lt_of_le counted (conserves.no_more y))

theorem count_names_arrange (y : String) (side : Side) (unknown other : Expr α) :
    (Solving.arrange side unknown other).names.count y =
      unknown.names.count y + other.names.count y := by
  cases side with
  | left => exact List.count_append
  | right => exact List.count_append.trans (Nat.add_comm _ _)

end Sides

namespace Equation

theorem lookup_occurrences_between (lhs rhs : Expr α) (y : String) :
    ((between lhs rhs).occurrences.lookup y).getD 0 = (Sides.mk lhs rhs).names.count y := by
  simp only [between, lookup_tally]
  split
  · rename_i never
    rw [never]
    rfl
  · rfl

/-- Whether a target is accepted depends on how often it occurs and on nothing else. -/
theorem checkTarget_tally (env : Env α) {y : String} {names names' : List String}
    (same : names.count y = names'.count y) :
    checkTarget env y (tally names) = checkTarget env y (tally names') := by
  simp only [checkTarget, lookup_tally, same]

end Equation

variable [Arithmetic α]

/-! ### Folds -/

namespace Expr

theorem Folded.count_names_le {e e' : Expr α} (folded : e.Folded env e') (y : String) :
    e'.names.count y ≤ e.names.count y := by
  induction folded with
  | same e => exact Nat.le_refl _
  | operands o op left right ihl ihr =>
    simp only [names_node, List.count_append]
    exact Nat.add_le_add ihl ihr
  | value value => simp

theorem Folded.count_names {e e' : Expr α} (folded : e.Folded env e') {y : String}
    (unbound : env y = none) : e'.names.count y = e.names.count y := by
  induction folded with
  | same e => rfl
  | operands o op left right ihl ihr =>
    simp only [names_node, List.count_append]
    rw [ihl, ihr]
  | @value o op l r v value =>
    have absent : y ∉ (node o op l r).names := by
      intro present
      have bound := bound_of_eval_ok value y present
      simp [unbound] at bound
    rw [List.count_eq_zero.mpr absent]
    rfl

theorem Folded.mem_names {e e' : Expr α} (folded : e.Folded env e') {y : String}
    (member : y ∈ e'.names) : y ∈ e.names := by
  have counted := List.count_pos_iff.mpr member
  exact List.count_pos_iff.mp (Nat.lt_of_lt_of_le counted (folded.count_names_le y))

end Expr

/-! ### Steps -/

namespace Sides

theorem conserves_of_folded {l l' r r' : Expr α} (left : l.Folded env l')
    (right : r.Folded env r') : (Sides.mk l r).Conserves env ⟨l', r'⟩ where
  no_more y := by
    simp only [names_eq, List.count_append]
    exact Nat.add_le_add (left.count_names_le y) (right.count_names_le y)
  as_many y unbound := by
    simp only [names_eq, List.count_append]
    rw [left.count_names unbound, right.count_names unbound]

/-- Moving an operator takes an operand from one side to the other, where it may be folded. -/
theorem conserves_move (o : Origin) (op applied : Op) (l r other : Expr α) (slot place : Slot)
    (side : Side) : (Solving.arrange side (.node o op l r) other).Conserves env
      (Solving.arrange side (slot.pick l r)
        (Solving.moved env applied place other (slot.flip.pick l r))) := by
  have wrapped (y : String) :
      (Solving.wrap applied place other (slot.flip.pick l r)).names.count y =
        other.names.count y + (slot.flip.pick l r).names.count y := by
    cases place with
    | left => simp [Solving.wrap]
    | right => simp [Solving.wrap, Nat.add_comm]
  have parts (y : String) : (Expr.node o op l r).names.count y =
      (slot.pick l r).names.count y + (slot.flip.pick l r).names.count y := by
    cases slot with
    | left => simp [Slot.pick, Slot.flip]
    | right => simp [Slot.pick, Slot.flip, Nat.add_comm]
  have folded : (Solving.wrap applied place other (slot.flip.pick l r)).Folded env
      (Solving.moved env applied place other (slot.flip.pick l r)) := Expr.foldRoot_folded env _
  constructor
  · intro y
    have fewer := folded.count_names_le y
    rw [wrapped] at fewer
    rw [count_names_arrange, count_names_arrange, parts]
    omega
  · intro y unbound
    have same := folded.count_names unbound
    rw [wrapped] at same
    rw [count_names_arrange, count_names_arrange, parts]
    omega

theorem Step.conserves {s t : Sides α} (step : s.Step env t) : s.Conserves env t := by
  cases step with
  | foldLeft r folds =>
    obtain ⟨path, folded⟩ := folds
    exact conserves_of_folded (Expr.folded_of_foldAt? folded) (.same r)
  | foldRight l folds =>
    obtain ⟨path, folded⟩ := folds
    exact conserves_of_folded (.same l) (Expr.folded_of_foldAt? folded)
  | move side other undone => exact conserves_move _ _ _ _ _ other _ _ side

theorem conserves_of_trail {s t : Sides α} {ts : List (Sides α)}
    (trail : Trail (Step env) s ts t) : s.Conserves env t ∧ ∀ u ∈ ts, s.Conserves env u := by
  induction trail with
  | nil s => exact ⟨.refl s, nofun⟩
  | @cons s t v ts step rest ih =>
    refine ⟨step.conserves.trans ih.1, ?_⟩
    intro u member
    rcases List.mem_cons.mp member with rfl | later
    · exact step.conserves
    · exact step.conserves.trans (ih.2 u later)

end Sides

/-! ### Calls -/

namespace Equation

/-- After any calls, and at every point within one, the variables of the two sides are as many as
before or fewer, and not fewer where no call had a value for them. -/
theorem history_conserves (calls : List (Call α)) (eq : Equation α) :
    ∀ t ∈ (eq.solveAll calls).sides :: eq.history calls, ∀ y,
      t.names.count y ≤ eq.sides.names.count y ∧
      ((∀ call ∈ calls, call.env y = none) → t.names.count y = eq.sides.names.count y) := by
  induction calls generalizing eq with
  | nil =>
    intro t member y
    rw [List.mem_singleton.mp member]
    exact ⟨Nat.le_refl _, fun _ => rfl⟩
  | cons call calls ih =>
    obtain ⟨final, midway⟩ := Sides.conserves_of_trail (eq.solving_trail call.env call.target)
    intro t member y
    by_cases here : t ∈ eq.stages call.env call.target
    · have conserves := midway t here
      exact ⟨conserves.no_more y,
        fun unbound => conserves.as_many y (unbound call List.mem_cons_self)⟩
    · have later : t ∈ ((eq.solve call.env call.target).1.solveAll calls).sides ::
          (eq.solve call.env call.target).1.history calls := by
        rcases List.mem_cons.mp member with rfl | member
        · exact List.mem_cons_self
        · exact List.mem_cons_of_mem _ ((List.mem_append.mp member).resolve_left here)
      obtain ⟨noMore, asMany⟩ := ih (eq.solve call.env call.target).1 t later y
      refine ⟨Nat.le_trans noMore (final.no_more y), fun unbound => ?_⟩
      have rest := asMany fun next member => unbound next (List.mem_cons_of_mem call member)
      exact rest.trans (final.as_many y (unbound call List.mem_cons_self))

end Equation

end Equate
