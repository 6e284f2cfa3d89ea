import Equate.Proofs.Solving.Stages
import Mathlib.Algebra.Field.Basic
import Mathlib.Algebra.Field.Rat

/-!
# Exact arithmetic

The solver takes numbers only through `Arithmetic.apply`. Here they are rational and division by
zero is undefined; powers are any function. In this arithmetic a step of a run keeps the solutions
of an equation, as long as both sides have a value before and after it (`Step.holds_iff`).
-/

namespace Equate

/-- A rational number, or none where an operation was undefined. -/
structure Exact (pow : ℚ → ℚ → ℚ) where
  value? : Option ℚ
  deriving DecidableEq

def Op.onRational (pow : ℚ → ℚ → ℚ) : Op → ℚ → ℚ → Option ℚ
  | .add, a, b => some (a + b)
  | .sub, a, b => some (a - b)
  | .mul, a, b => some (a * b)
  | .div, a, b => if b = 0 then none else some (a / b)
  | .pow, a, b => some (pow a b)

variable {pow : ℚ → ℚ → ℚ}

instance : Arithmetic (Exact pow) where
  apply op a b := ⟨a.value?.bind fun p => b.value?.bind fun q => op.onRational pow p q⟩

namespace Exact

def number (q : ℚ) : Exact pow := ⟨some q⟩

def assignment (s : String → ℚ) : Env (Exact pow) := fun x => some (number (s x))

end Exact

/-! ### Values under an assignment -/

namespace Expr

/-- The value under an assignment, unless a divisor is zero. -/
def valueAt? (s : String → ℚ) (e : Expr (Exact pow)) : Option ℚ :=
  match e.eval (Exact.assignment s) with
  | .ok v => v.value?
  | .error _ => none

variable {s : String → ℚ}

theorem eval_assignment (s : String → ℚ) (e : Expr (Exact pow)) :
    e.eval (Exact.assignment s) = .ok ⟨e.valueAt? s⟩ := by
  obtain ⟨v, value⟩ := e.eval_ok fun x _ => show (Exact.assignment s x).isSome from rfl
  rw [valueAt?, value]

@[simp] theorem valueAt?_var (s : String → ℚ) (x : String) :
    (var x : Expr (Exact pow)).valueAt? s = some (s x) := by
  rw [valueAt?, eval_var_some (Exact.assignment s) rfl]
  rfl

theorem valueAt?_node (s : String → ℚ) (o : Origin) (op : Op) (l r : Expr (Exact pow)) :
    (node o op l r).valueAt? s =
      (l.valueAt? s).bind fun a => (r.valueAt? s).bind fun b => op.onRational pow a b := by
  rw [valueAt?, eval_node_ok (eval_assignment s l) (eval_assignment s r)]
  rfl

theorem valueAt?_node_eq_some {o : Origin} {op : Op} {l r : Expr (Exact pow)} {q : ℚ}
    (value : (node o op l r).valueAt? s = some q) :
    ∃ a b, l.valueAt? s = some a ∧ r.valueAt? s = some b ∧ op.onRational pow a b = some q := by
  rw [valueAt?_node, Option.bind_eq_some_iff] at value
  obtain ⟨a, left, value⟩ := value
  obtain ⟨b, right, value⟩ := Option.bind_eq_some_iff.mp value
  exact ⟨a, b, left, right, value⟩

theorem valueAt?_congr {e e' : Expr (Exact pow)}
    (same : e'.eval (Exact.assignment s) = e.eval (Exact.assignment s)) :
    e'.valueAt? s = e.valueAt? s := by
  rw [valueAt?, valueAt?, same]

end Expr

/-! ### Solutions -/

namespace Sides

def Defined (s : String → ℚ) (t : Sides (Exact pow)) : Prop :=
  (t.lhs.valueAt? s).isSome ∧ (t.rhs.valueAt? s).isSome

def Holds (s : String → ℚ) (t : Sides (Exact pow)) : Prop :=
  ∃ q, t.lhs.valueAt? s = some q ∧ t.rhs.valueAt? s = some q

instance (s : String → ℚ) (t : Sides (Exact pow)) : Decidable (t.Defined s) :=
  inferInstanceAs (Decidable (_ ∧ _))

variable {s : String → ℚ}

theorem Defined.values {side : Side} {unknown other : Expr (Exact pow)}
    (defined : (Solving.arrange side unknown other).Defined s) :
    ∃ a b, unknown.valueAt? s = some a ∧ other.valueAt? s = some b := by
  obtain ⟨left, right⟩ := defined
  obtain ⟨a, left⟩ := Option.isSome_iff_exists.mp left
  obtain ⟨b, right⟩ := Option.isSome_iff_exists.mp right
  cases side with
  | left => exact ⟨a, b, left, right⟩
  | right => exact ⟨b, a, right, left⟩

theorem holds_arrange {side : Side} {unknown other : Expr (Exact pow)} {a b : ℚ}
    (left : unknown.valueAt? s = some a) (right : other.valueAt? s = some b) :
    (Solving.arrange side unknown other).Holds s ↔ a = b := by
  cases side with
  | left => simp [Holds, Solving.arrange, left, right, eq_comm]
  | right => simp [Holds, Solving.arrange, left, right]

end Sides

/-! ### Moving an operator -/

theorem Op.onRational_div_eq_some {a b q : ℚ} (quotient : onRational pow .div a b = some q) :
    b ≠ 0 ∧ a / b = q := by
  by_cases zero : b = 0
  · simp [onRational, zero] at quotient
  · exact ⟨zero, by simpa [onRational, zero] using quotient⟩

theorem Op.undo_sound {op applied : Op} {slot place : Slot}
    (undone : op.undo slot = some (applied, place)) {l r a b c : ℚ}
    (before : op.onRational pow l r = some a)
    (after : applied.onRational pow (place.pick b (slot.flip.pick l r))
      (place.pick (slot.flip.pick l r) b) = some c) :
    a = b ↔ slot.pick l r = c := by
  cases op with
  | add =>
    cases slot with
    | left =>
      cases undone; cases before; cases after
      exact eq_sub_iff_add_eq.symm
    | right =>
      cases undone; cases before; cases after
      exact eq_sub_iff_add_eq'.symm
  | sub =>
    cases slot with
    | left =>
      cases undone; cases before; cases after
      exact sub_eq_iff_eq_add
    | right =>
      cases undone; cases before; cases after
      exact sub_eq_iff_comm.trans eq_comm
  | mul =>
    cases slot with
    | left =>
      cases undone; cases before
      obtain ⟨nonzero, rfl⟩ := onRational_div_eq_some after
      exact (eq_div_iff nonzero).symm
    | right =>
      cases undone; cases before
      obtain ⟨(nonzero : l ≠ 0), rfl⟩ := onRational_div_eq_some after
      show l * r = b ↔ r = b / l
      rw [eq_div_iff nonzero, mul_comm]
  | div =>
    obtain ⟨nonzero, rfl⟩ := onRational_div_eq_some before
    cases slot with
    | left =>
      cases undone; cases after
      exact div_eq_iff nonzero
    | right =>
      cases undone
      obtain ⟨(nonzero' : b ≠ 0), rfl⟩ := onRational_div_eq_some after
      -- here the divisor changes sides, so that both divisions must be possible
      show l / r = b ↔ r = l / b
      rw [div_eq_iff nonzero, eq_div_iff nonzero', eq_comm, mul_comm b]
  | pow => cases undone

theorem Solving.valueAt?_wrap {s : String → ℚ} {place : Slot} {applied : Op}
    {other operand : Expr (Exact pow)} {q b c : ℚ} (right : operand.valueAt? s = some q)
    (left : other.valueAt? s = some b)
    (value : (wrap applied place other operand).valueAt? s = some c) :
    applied.onRational pow (place.pick b q) (place.pick q b) = some c := by
  cases place with
  | left =>
    obtain ⟨_, _, first, second, value⟩ := Expr.valueAt?_node_eq_some value
    cases left.symm.trans first
    cases right.symm.trans second
    exact value
  | right =>
    obtain ⟨_, _, first, second, value⟩ := Expr.valueAt?_node_eq_some value
    cases right.symm.trans first
    cases left.symm.trans second
    exact value

theorem Solving.valueAt?_moved {env : Env (Exact pow)} {s : String → ℚ}
    (agrees : (Exact.assignment s).Extends env) (applied : Op) (place : Slot)
    (other operand : Expr (Exact pow)) :
    (moved env applied place other operand).valueAt? s =
      (wrap applied place other operand).valueAt? s :=
  Expr.valueAt?_congr (Expr.eval_foldRoot agrees _)

/-! ### Steps -/

theorem Expr.FoldsTo.valueAt? {env : Env (Exact pow)} {s : String → ℚ}
    (agrees : (Exact.assignment s).Extends env) {e e' : Expr (Exact pow)}
    (folds : e.FoldsTo env e') : e'.valueAt? s = e.valueAt? s := by
  obtain ⟨path, folded⟩ := folds
  exact Expr.valueAt?_congr (Expr.eval_foldAt? agrees folded)

/-- A step keeps the solutions among the assignments that agree with the values it was taken with,
unless it divides by zero. -/
theorem Sides.Step.holds_iff {env : Env (Exact pow)} {s : String → ℚ}
    (agrees : (Exact.assignment s).Extends env) {t u : Sides (Exact pow)} (step : Step env t u)
    (before : t.Defined s) (after : u.Defined s) : u.Holds s ↔ t.Holds s := by
  cases step with
  | foldLeft r folds =>
    unfold Holds
    simp only [folds.valueAt? agrees]
  | foldRight l folds =>
    unfold Holds
    simp only [folds.valueAt? agrees]
  | @move o op applied l r slot place side other undone =>
    obtain ⟨a, b, whole, opposite⟩ := before.values
    obtain ⟨kept, c, remaining, result⟩ := after.values
    obtain ⟨p, q, left, right, applies⟩ := Expr.valueAt?_node_eq_some whole
    have picked (slot : Slot) : (slot.pick l r).valueAt? s = some (slot.pick p q) := by
      cases slot with
      | left => exact left
      | right => exact right
    have wrapped := result
    rw [Solving.valueAt?_moved agrees] at wrapped
    have undoes := Solving.valueAt?_wrap (picked slot.flip) opposite wrapped
    rw [holds_arrange (picked slot) result, holds_arrange whole opposite]
    exact (Op.undo_sound undone applies undoes).symm

end Equate
