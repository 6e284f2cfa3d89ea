import Equate.Proofs.Solving.Outcome
import Equate.Repl

/-!
# Equation lines

A line with an equation is solved for its only variable without a value. Where the equation has a
solution, the line is answered with it, if the precision in force can show any number at all.
-/

namespace Equate

/-! ### The only unknown -/

theorem Equation.unknowns_eq_singleton {α : Type} {env : Env α} {x : String} {lhs rhs : Expr α}
    (present : x ∈ (Sides.mk lhs rhs).names)
    (only : ∀ y ∈ (Sides.mk lhs rhs).names, env y = none ↔ y = x) :
    (between lhs rhs).unknowns env = [x] := by
  have distinct : ((between lhs rhs).unknowns env).Nodup :=
    (nodup_keys_tally _).filter _
  have members : ∀ y, y ∈ (between lhs rhs).unknowns env ↔ y ∈ [x] := by
    intro y
    simp only [unknowns, List.mem_filter, between, mem_keys_tally, Option.isNone_iff_eq_none,
      List.mem_singleton]
    constructor
    · rintro ⟨member, unbound⟩
      exact (only y member).mp unbound
    · rintro rfl
      exact ⟨present, (only y present).mpr rfl⟩
  exact List.perm_singleton.mp
    ((List.perm_ext_iff_of_nodup distinct (by simp)).mpr members)

theorem Equation.eq_between_of_parse {α : Type} [OfScientific α] {text : String} {eq : Equation α}
    (parsed : Equation.parse text = .ok eq) : ∃ lhs rhs, eq = between lhs rhs := by
  unfold Equation.parse at parsed
  cases cut : cutAtEquals text with
  | error fault => rw [cut] at parsed; cases parsed
  | ok halves =>
    obtain ⟨left, right⟩ := halves
    rw [cut] at parsed
    change parseSides left right = .ok eq at parsed
    unfold parseSides at parsed
    cases readLeft : (Formula.parse left : Except ExprError (Formula α)) with
    | error fault => rw [readLeft] at parsed; cases parsed
    | ok l =>
      cases readRight : (Formula.parse right : Except ExprError (Formula α)) with
      | error fault => rw [readLeft, readRight] at parsed; cases parsed
      | ok r =>
        rw [readLeft, readRight] at parsed
        exact ⟨l.expr, r.expr, (Except.ok.inj parsed).symm⟩

/-! ### Precision -/

namespace Number

theorem checkPrecision_ok {p : Int} (low : 0 ≤ p) (high : p ≤ 2147483647) :
    checkPrecision p = .ok p.toNat := by
  unfold checkPrecision
  rw [if_neg (by omega), if_neg (by omega), if_neg (by omega)]

theorem checkPrecision_error {p : Int} (beyond : ¬ (0 ≤ p ∧ p ≤ 2147483647)) :
    ∃ m, checkPrecision p = .error m ∧ m.kind = .value := by
  unfold checkPrecision
  repeat' split
  · exact ⟨_, rfl, rfl⟩
  · exact ⟨_, rfl, rfl⟩
  · exact ⟨_, rfl, rfl⟩
  · omega

end Number

/-! ### The answer -/

namespace Repl

theorem reply_of_solved {s : Repl} {line text : String} {eq : Equation Float} {x : String}
    {v : Float} (read : Line.parse line = .equation text) (parsed : Equation.parse text = .ok eq)
    (unknown : eq.unknowns s.bindings.env = [x])
    (solved : (eq.solving s.bindings.env x).outcome = .ok v) :
    if 0 ≤ s.precision ∧ s.precision ≤ 2147483647 then
      ∃ rest, (s.process line).reply =
        .ok (.said (x ++ " = " ++ Number.rounded s.precision.toNat v ++ rest))
    else ∃ m, (s.process line).reply = .error m ∧ m.kind = .value := by
  have reply : (s.process line).reply =
      s.showSolution x eq v (eq.solving s.bindings.env x) := by
    simp only [process, answer, read, Repl.solve, parsed, targetOf, unknown, solved]
  rw [reply, showSolution]
  split
  · rename_i shown
    have written : s.display v = .ok (Number.rounded s.precision.toNat v) := by
      rw [display, Number.format, Number.checkPrecision_ok shown.1 shown.2]
      rfl
    rw [written]
    by_cases traced : (s.trace && !(eq.solving s.bindings.env x).steps.isEmpty) = true
    · refine ⟨"\n" ++ ((eq.solving s.bindings.env x).trace x eq.sides v).chain, ?_⟩
      simp only [if_pos traced, String.append_assoc]
      rfl
    · refine ⟨"", ?_⟩
      simp only [if_neg traced, String.append_empty]
      rfl
  · rename_i beyond
    obtain ⟨m, failed, kind⟩ := Number.checkPrecision_error beyond
    refine ⟨m, ?_, kind⟩
    rw [display, Number.format, failed]
    rfl

/-- Solving comes to what the sides and the bindings decide. So the line of an equation whose only
unknown occurs once and under no power is answered with its value, exactly if the precision can be
written with. -/
theorem solving_and_reply {α : Type} [Arithmetic α] (env : Env α) (x : String) (lhs rhs : Expr α)
    (s : Repl) (line text : String) (eq : Equation Float) :
    (Sides.mk lhs rhs).Decides env x ((Equation.between lhs rhs).solving env x).outcome ∧
    (Line.parse line = .equation text → Equation.parse text = .ok eq →
      (∀ y ∈ eq.sides.names, s.bindings.env y = none ↔ y = x) →
      eq.sides.names.count x = 1 → .pow ∉ eq.sides.operatorsAbove x →
      ∃ v, (eq.solving s.bindings.env x).outcome = .ok v ∧
        if 0 ≤ s.precision ∧ s.precision ≤ 2147483647 then
          ∃ rest, (s.process line).reply =
            .ok (.said (x ++ " = " ++ Number.rounded s.precision.toNat v ++ rest))
        else ∃ m, (s.process line).reply = .error m ∧ m.kind = .value) := by
  refine ⟨Equation.solving_decided env x lhs rhs, ?_⟩
  intro read parsed only once free
  obtain ⟨lhs, rhs, rfl⟩ := Equation.eq_between_of_parse parsed
  have present : x ∈ (Sides.mk lhs rhs).names := List.count_pos_iff.mp (once ▸ Nat.one_pos)
  obtain ⟨v, solved⟩ :=
    (Equation.solving_decided s.bindings.env x lhs rhs).solved only once free
  exact ⟨v, solved, reply_of_solved read parsed
    (Equation.unknowns_eq_singleton present only) solved⟩

theorem reply_of_difference :
    let s : Repl := { start 10 with bindings := [("y", 2.0), ("z", 3.0)] }
    let eq : Equation Float :=
      .between (.node .parsed .sub (.var "x") (.var "y")) (.var "z")
    Line.parse "x - y = z" = .equation "x - y = z" ∧ Equation.parse "x - y = z" = .ok eq ∧
      ∃ v, (eq.solving s.bindings.env "x").outcome = .ok v ∧
        ∃ rest, (s.process "x - y = z").reply =
          .ok (.said ("x" ++ " = " ++ Number.rounded 10 v ++ rest)) := by
  intro s eq
  have read : Line.parse "x - y = z" = .equation "x - y = z" := rfl
  have parsed : Equation.parse "x - y = z" = .ok eq := rfl
  have only : ∀ y ∈ eq.sides.names, s.bindings.env y = none ↔ y = "x" := by
    intro y member
    have member : y ∈ ["x", "y", "z"] := member
    rcases List.mem_cons.mp member with rfl | member
    · exact ⟨fun _ => rfl, fun _ => rfl⟩
    · rcases List.mem_cons.mp member with rfl | member
      · exact ⟨nofun, by decide⟩
      · rw [List.mem_singleton.mp member]
        exact ⟨nofun, by decide⟩
  obtain ⟨v, solved, reply⟩ :=
    (solving_and_reply s.bindings.env "x" (.var "x") (.var "y") s "x - y = z" _ eq).2
      read parsed only rfl (by decide)
  exact ⟨read, parsed, v, solved, reply⟩

/-- A precision that no number can be written with is accepted. From then on `x + 1 = 2`, which has
a solution, has no answer. -/
theorem no_reply_beyond_precision :
    let s := ((start 10).process ":precision 3000000000").state
    let one : Expr Float := .lit (OfScientific.ofScientific 1 true 0)
    let two : Expr Float := .lit (OfScientific.ofScientific 2 true 0)
    let eq : Equation Float := .between (.node .parsed .add (.var "x") one) two
    ((start 10).process ":precision 3000000000").reply =
        .ok (.said "Precision set to: 3000000000") ∧
      Line.parse "x + 1 = 2" = .equation "x + 1 = 2" ∧ Equation.parse "x + 1 = 2" = .ok eq ∧
      eq.unknowns s.bindings.env = ["x"] ∧ eq.sides.names.count "x" = 1 ∧
      .pow ∉ eq.sides.operatorsAbove "x" ∧
      ∃ m, (s.process "x + 1 = 2").reply = .error m ∧ m.kind = .value := by
  intro s one two eq
  have state : s = { start 10 with precision := 3000000000 } := rfl
  have read : Line.parse "x + 1 = 2" = .equation "x + 1 = 2" := rfl
  have parsed : Equation.parse "x + 1 = 2" = .ok eq := rfl
  have only : ∀ y ∈ eq.sides.names, s.bindings.env y = none ↔ y = "x" := by
    intro y member
    have member : y ∈ ["x"] := member
    rw [state]
    exact ⟨fun _ => List.mem_singleton.mp member, fun _ => rfl⟩
  have free : .pow ∉ eq.sides.operatorsAbove "x" := by decide
  obtain ⟨v, solved⟩ := (Equation.solving_decided s.bindings.env "x" _ _).solved only rfl free
  have reply := reply_of_solved read parsed rfl solved
  rw [if_neg (by rw [state]; decide)] at reply
  exact ⟨rfl, read, parsed, rfl, rfl, free, reply⟩

end Repl

end Equate
