import Equate.Formula
import Equate.Proofs.Expr.Postfix

/-!
# The infix grammar

`Derives` is the grammar of infix texts, with the expression that each derivation stands for. All
operators group from left to right, and parentheses leave no trace. `order_of_derives`: the postfix
order of what the grammar derives lists the tokens of that expression.
-/

namespace Equate

variable {α : Type}

/-- The nonterminals, from the weakest binding to the strongest. -/
inductive Nonterminal where
  | sum | product | power | atom
  deriving DecidableEq

namespace Nonterminal

def operators : Nonterminal → List Op
  | sum => [.add, .sub]
  | product => [.mul, .div]
  | power => [.pow]
  | atom => []

/-- What stands to the right of an operator of this level, or alone in its place. -/
def operand : Nonterminal → Nonterminal
  | sum => product
  | product => power
  | power => atom
  | atom => atom

def strength : Nonterminal → Nat
  | sum => 1
  | product => 2
  | power => 3
  | atom => 4

theorem precedence_of_mem {n : Nonterminal} {op : Op} (listed : op ∈ n.operators) :
    op.precedence = n.strength := by
  revert listed
  cases n <;> cases op <;> decide

theorem mem_of_precedence {n : Nonterminal} {op : Op} (same : op.precedence = n.strength) :
    op ∈ n.operators := by
  revert same
  cases n <;> cases op <;> decide

theorem strength_operand (n : Nonterminal) : n.strength ≤ n.operand.strength := by
  cases n <;> decide

theorem strength_lt_operand {n : Nonterminal} {op : Op} (listed : op ∈ n.operators) :
    n.strength < n.operand.strength := by
  cases n with
  | atom => cases listed
  | _ => decide

end Nonterminal

/-- The tokens that a nonterminal derives, with the expression that they stand for. -/
inductive Derives : Nonterminal → List (Token α) → Expr α → Prop where
  | operation {n : Nonterminal} {op : Op} {ts us : List (Token α)} {l r : Expr α}
      (listed : op ∈ n.operators) (left : Derives n ts l) (right : Derives n.operand us r) :
      Derives n (ts ++ .operator .parsed op :: us) (.node .parsed op l r)
  | operand {n : Nonterminal} {ts : List (Token α)} {e : Expr α} (inner : Derives n.operand ts e) :
      Derives n ts e
  | literal (v : α) : Derives .atom [.literal v] (.lit v)
  | name (x : String) : Derives .atom [.name x] (.var x)
  | parens {ts : List (Token α)} {e : Expr α} (inner : Derives .sum ts e) :
      Derives .atom (.openParen :: ts ++ [.closeParen]) e

theorem Derives.sum_of_atom {ts : List (Token α)} {e : Expr α} (atom : Derives .atom ts e) :
    Derives .sum ts e := .operand (.operand (.operand atom))

/-! ### Putting one token in order -/

namespace Rpn

variable (pending ts : List (Token α))

theorem orderFrom_literal (v : α) :
    orderFrom pending (.literal v :: ts) = (.literal v :: ·) <$> orderFrom pending ts := rfl

theorem orderFrom_name (x : String) :
    orderFrom pending (.name x :: ts) = (.name x :: ·) <$> orderFrom pending ts := rfl

theorem orderFrom_open :
    orderFrom pending (.openParen :: ts) = orderFrom (.openParen :: pending) ts := rfl

theorem orderFrom_operator (o : Origin) (op : Op) :
    orderFrom pending (.operator o op :: ts) =
      (pending.takeWhile (yields (.operator o op)) ++ ·) <$>
        orderFrom (.operator o op :: pending.dropWhile (yields (.operator o op))) ts := rfl

theorem orderFrom_close :
    orderFrom pending (.closeParen :: ts) =
      match pending.dropWhile notOpen with
      | [] => .error .unexpectedClose
      | _ :: outer => (pending.takeWhile notOpen ++ ·) <$> orderFrom outer ts := rfl

theorem orderFrom_close_open :
    orderFrom (.openParen :: pending) (.closeParen :: ts) = orderFrom pending ts := by
  rw [orderFrom_close]
  exact id_map (orderFrom pending ts)

/-! ### Waiting operators -/

/-- Whether tokens make a waiting operator of the given strength give way: they end, close a
parenthesis, or go on with an operator that binds no more strongly. -/
def Releases (strength : Nat) : List (Token α) → Prop
  | [] => True
  | .closeParen :: _ => True
  | .operator o op :: _ => (Token.operator o op : Token α).precedence ≤ strength
  | _ => False

instance (strength : Nat) (ts : List (Token α)) : Decidable (Releases strength ts) :=
  match ts with
  | [] | .closeParen :: _ => isTrue trivial
  | .operator o op :: _ =>
    inferInstanceAs (Decidable ((Token.operator o op : Token α).precedence ≤ strength))
  | .literal _ :: _ | .name _ :: _ | .openParen :: _ => isFalse id

theorem Releases.mono {k k' : Nat} {ts : List (Token α)} (released : Releases k ts) (le : k ≤ k') :
    Releases k' ts := by
  match ts, released with
  | [], _ => exact trivial
  | .closeParen :: _, _ => exact trivial
  | .operator _ _ :: _, released => exact Nat.le_trans released le

def Weaker (strength : Nat) (pending : List (Token α)) : Prop :=
  ∀ t ∈ pending.head?, t.precedence < strength

theorem Weaker.mono {k k' : Nat} {pending : List (Token α)} (weaker : Weaker k pending)
    (le : k ≤ k') : Weaker k' pending := fun t last => Nat.lt_of_lt_of_le (weaker t last) le

variable {pending ts}

theorem yields_iff {t p : Token α} :
    yields t p = true ↔ p.precedence ≠ 0 ∧ t.precedence ≤ p.precedence := by
  simp [yields]

theorem precedence_pos (o : Origin) (op : Op) : 0 < (Token.operator o op : Token α).precedence := by
  cases o <;> cases op <;> exact Nat.succ_pos _

theorem orderFrom_operator_of_weaker {op : Op} (weaker : Weaker op.precedence pending) :
    orderFrom pending (.operator .parsed op :: ts) =
      orderFrom (.operator .parsed op :: pending) ts := by
  have stays : pending.takeWhile (yields (.operator .parsed op)) = [] ∧
      pending.dropWhile (yields (.operator .parsed op)) = pending := by
    cases pending with
    | nil => exact ⟨rfl, rfl⟩
    | cons t below =>
      have low : t.precedence < op.precedence := weaker t rfl
      have kept : ¬ yields (.operator .parsed op) t = true := by
        rw [yields_iff]
        exact fun gives => Nat.not_le_of_lt low gives.2
      exact ⟨List.takeWhile_cons_of_neg kept, List.dropWhile_cons_of_neg kept⟩
  rw [orderFrom_operator, stays.1, stays.2]
  exact id_map (orderFrom (.operator .parsed op :: pending) ts)

theorem orderFrom_release {op : Op} (released : Releases op.precedence ts) :
    orderFrom (.operator .parsed op :: pending) ts =
      (.operator .parsed op :: ·) <$> orderFrom pending ts := by
  match ts, released with
  | [], _ =>
    simp only [orderFrom, List.all_cons, notOpen, Bool.true_and]
    split <;> rfl
  | .closeParen :: ts, _ =>
    rw [orderFrom_close, orderFrom_close, List.dropWhile_cons_of_pos rfl,
      List.takeWhile_cons_of_pos rfl]
    cases pending.dropWhile notOpen with
    | nil => rfl
    | cons _ outer => simp only [Functor.map_map, List.cons_append]
  | .operator o op' :: ts, released =>
    have gives : yields (.operator o op') (.operator .parsed op : Token α) = true :=
      yields_iff.mpr ⟨Nat.ne_of_gt (precedence_pos .parsed op), released⟩
    rw [orderFrom_operator, orderFrom_operator, List.takeWhile_cons_of_pos gives,
      List.dropWhile_cons_of_pos gives]
    simp only [Functor.map_map, List.cons_append]

end Rpn

/-! ### Derived tokens in order -/

open Rpn in
/-- Derived tokens put out the list of their expression, before a rest that makes the operators of
their level give way and after pending ones that bind less strongly. -/
theorem orderFrom_of_derives {n : Nonterminal} {ts : List (Token α)} {e : Expr α}
    (derived : Derives n ts e) {pending rest : List (Token α)} (weaker : Weaker n.strength pending)
    (released : Releases n.strength rest) :
    orderFrom pending (ts ++ rest) = (e.toRpn ++ ·) <$> orderFrom pending rest := by
  induction derived generalizing pending rest with
  | @operation n op ts us l r listed left right ihl ihr =>
    have same := Nonterminal.precedence_of_mem listed
    have tighter := Nonterminal.strength_lt_operand listed
    have after : Releases n.strength (.operator .parsed op :: (us ++ rest)) := Nat.le_of_eq same
    have above : Weaker n.operand.strength (.operator .parsed op :: pending) := by
      rintro t ⟨⟩
      exact Nat.lt_of_le_of_lt (Nat.le_of_eq same) tighter
    -- the operator waits while its right operand is read, then comes out after it
    rw [List.append_assoc, List.cons_append, ihl weaker after]
    rw [orderFrom_operator_of_weaker (same ▸ weaker)]
    rw [ihr above (released.mono (Nat.le_of_lt tighter))]
    rw [orderFrom_release (same ▸ released)]
    simp
  | @operand n ts e inner ih =>
    have le := n.strength_operand
    exact ih (weaker.mono le) (released.mono le)
  | literal v => exact orderFrom_literal pending rest v
  | name x => exact orderFrom_name pending rest x
  | @parens ts e inner ih =>
    have inside : Weaker Nonterminal.sum.strength (.openParen :: pending) := by
      rintro t ⟨⟩
      exact Nat.succ_pos 0
    have close : Releases Nonterminal.sum.strength (.closeParen :: rest) := trivial
    rw [List.append_assoc, List.cons_append, List.singleton_append, orderFrom_open]
    rw [ih inside close, orderFrom_close_open]

theorem order_of_derives {ts : List (Token α)} {e : Expr α} (derived : Derives .sum ts e) :
    Rpn.order ts = .ok e.toRpn := by
  have weaker : Rpn.Weaker Nonterminal.sum.strength ([] : List (Token α)) := nofun
  have released : Rpn.Releases Nonterminal.sum.strength ([] : List (Token α)) := trivial
  have ordered := orderFrom_of_derives derived weaker released
  rw [List.append_nil] at ordered
  rw [Rpn.order, ordered, Rpn.orderFrom]
  simp [Functor.map, Except.map]

def Token.isOperand (t : Token α) : Bool := t.isLiteral || t.isVariable

theorem operands_of_derives {n : Nonterminal} {ts : List (Token α)} {e : Expr α}
    (derived : Derives n ts e) : e.toRpn.filter Token.isOperand = ts.filter Token.isOperand := by
  induction derived with
  | @operation n op ts us l r listed left right ihl ihr =>
    have dropped : (Token.operator .parsed op : Token α).isOperand = false := rfl
    simp [ihl, ihr, dropped]
  | operand inner ih => exact ih
  | literal v => rfl
  | name x => rfl
  | @parens ts e inner ih =>
    have opened : (Token.openParen : Token α).isOperand = false := rfl
    have closed : (Token.closeParen : Token α).isOperand = false := rfl
    simp [ih, opened, closed]

/-- Infix tokens are read as the expression that the grammar derives, with the operands as they
stand from left to right. -/
theorem build_order_of_derives {ts : List (Token α)} {e : Expr α} (derived : Derives .sum ts e) :
    (Rpn.order ts >>= Expr.ofRpn) = .ok e ∧
      e.toRpn.filter Token.isOperand = ts.filter Token.isOperand := by
  refine ⟨?_, operands_of_derives derived⟩
  rw [order_of_derives derived]
  exact Expr.ofRpn_toRpn e

/-- `2 - (x - 3) ^ y ^ 4`: the powers group from the left, the parentheses are gone. -/
theorem build_order_of_powers :
    let ts : List (Token Nat) := [.literal 2, .operator .parsed .sub, .openParen, .name "x",
      .operator .parsed .sub, .literal 3, .closeParen, .operator .parsed .pow, .name "y",
      .operator .parsed .pow, .literal 4]
    let base : Expr Nat := .node .parsed .sub (.var "x") (.lit 3)
    let e : Expr Nat := .node .parsed .sub (.lit 2)
      (.node .parsed .pow (.node .parsed .pow base (.var "y")) (.lit 4))
    Derives .sum ts e ∧ (Rpn.order ts >>= Expr.ofRpn) = .ok e ∧
      e.toRpn.filter Token.isOperand = ts.filter Token.isOperand := by
  intro ts base e
  have minus : Op.sub ∈ Nonterminal.sum.operators := by decide
  have raised : Op.pow ∈ Nonterminal.power.operators := by decide
  have inside := Derives.operation minus (Derives.name "x").sum_of_atom
    (.operand (.operand (.literal 3)))
  have first := Derives.operation raised (.operand (.parens inside)) (.name "y")
  have powers := Derives.operation raised first (.literal 4)
  have derived := Derives.operation minus (Derives.literal 2).sum_of_atom (.operand powers)
  exact ⟨derived, build_order_of_derives derived⟩

theorem Derives.unique {ts : List (Token α)} {e e' : Expr α} (derived : Derives .sum ts e)
    (derived' : Derives .sum ts e') : e = e' := by
  have ordered := order_of_derives derived
  rw [order_of_derives derived'] at ordered
  exact Expr.toRpn_injective (Except.ok.inj ordered).symm

end Equate
