import Equate.Formula
import Equate.Proofs.Tree.Traversal

/-!
# Expressions and their postfix lists

`ofRpn_eq_ok_iff`: a postfix list describes an expression exactly if it lists the tokens of that
expression. `reduceM_toRpn`: reading the list with a stack gives what reading the expression by
recursion gives, and leaves nothing else on the stack. The postfix list of a tree, which comes from
walking it, is that of the expression (`toRpn_toTree`).
-/

namespace Equate

variable {α β : Type}

/-- Where a list in two parts is cut before an element, this is in the first part or the second. -/
theorem append_eq_append_cons {xs ys read rest : List α} {t : α}
    (split : xs ++ ys = read ++ t :: rest) :
    (∃ rest', xs = read ++ t :: rest') ∨ ∃ read', read = xs ++ read' ∧ ys = read' ++ t :: rest := by
  rcases List.append_eq_append_iff.mp split with ⟨read', same, later⟩ | ⟨cut, same, later⟩
  · exact Or.inr ⟨read', same, later⟩
  · cases cut with
    | nil => exact Or.inr ⟨[], by simpa using same.symm, by simpa using later.symm⟩
    | cons u cut =>
      obtain ⟨rfl, -⟩ := List.cons.inj later
      exact Or.inl ⟨cut, same⟩

namespace Tree

@[simp] theorem toRpn_leaf (t : Token α) : (leaf t).toRpn = [t] := by
  rw [toRpn, walkPostorder_leaf]
  rfl

@[simp] theorem toRpn_node (t : Token α) (cs : List (Tree (Token α))) :
    (node t cs).toRpn = cs.flatMap toRpn ++ [t] := by
  rw [toRpn, walkPostorder_node, List.map_append, List.map_flatMap]
  rfl

end Tree

namespace Expr

/-! ### The list of an expression -/

theorem rpnOnto_eq (rest : List (Token α)) (e : Expr α) : e.rpnOnto rest = e.toRpn ++ rest := by
  induction e generalizing rest with
  | lit v => rfl
  | var x => rfl
  | node o op l r ihl ihr =>
    simp only [toRpn, rpnOnto]
    rw [ihl, ihr, ihl (r.rpnOnto _), ihr [_]]
    simp

@[simp] theorem toRpn_lit (v : α) : (lit v).toRpn = [.literal v] := rfl

@[simp] theorem toRpn_var (x : String) : (var x : Expr α).toRpn = [.name x] := rfl

@[simp] theorem toRpn_node (o : Origin) (op : Op) (l r : Expr α) :
    (node o op l r).toRpn = l.toRpn ++ r.toRpn ++ [.operator o op] := by
  simp only [toRpn, rpnOnto]
  rw [rpnOnto_eq, rpnOnto_eq]
  simp [toRpn]

theorem toRpn_toTree (e : Expr α) : e.toTree.toRpn = e.toRpn := by
  induction e with
  | lit v => exact Tree.toRpn_leaf _
  | var x => exact Tree.toRpn_leaf _
  | node o op l r ihl ihr =>
    rw [toTree, Tree.toRpn_node, List.flatMap_cons, List.flatMap_cons, List.flatMap_nil, ihl, ihr,
      List.append_nil, toRpn_node]

/-! ### Building -/

theorem build_toRpn (e : Expr α) (stack : List (Expr α)) (rest : List (Token α)) :
    build stack (e.toRpn ++ rest) = build (e :: stack) rest := by
  induction e generalizing stack rest with
  | lit v => rfl
  | var x => rfl
  | node o op l r ihl ihr =>
    rw [toRpn_node, List.append_assoc, List.append_assoc, ihl, ihr]
    rfl

theorem ofRpn_toRpn (e : Expr α) : ofRpn e.toRpn = .ok e := by
  have built := build_toRpn e [] []
  rwa [List.append_nil] at built

/-- The tokens that led to a stack of operands, and the remaining ones, are those of the result. -/
theorem toRpn_of_build {stack : List (Expr α)} {tokens : List (Token α)} {e : Expr α}
    (built : build stack tokens = .ok e) : stack.reverse.flatMap toRpn ++ tokens = e.toRpn := by
  induction tokens generalizing stack with
  | nil =>
    match stack, built with
    | [_], built =>
      obtain rfl := Except.ok.inj built
      simp
  | cons t ts ih =>
    cases t with
    | literal v => simpa using ih built
    | name x => simpa using ih built
    | openParen => cases built
    | closeParen => cases built
    | operator o op =>
      match stack, built with
      | r :: l :: below, built => simpa using ih built

theorem ofRpn_eq_ok_iff {tokens : List (Token α)} {e : Expr α} :
    ofRpn tokens = .ok e ↔ tokens = e.toRpn := by
  constructor
  · intro built
    simpa using toRpn_of_build built
  · rintro rfl
    exact ofRpn_toRpn e

theorem toRpn_injective {e e' : Expr α} (same : e.toRpn = e'.toRpn) : e = e' := by
  have built := ofRpn_toRpn e
  rw [same, ofRpn_toRpn] at built
  exact (Except.ok.inj built).symm

theorem build_error_family {stack : List (Expr α)} {tokens : List (Token α)} {fault : ExprError}
    (failed : build stack tokens = .error fault) : fault.family = .grammar := by
  induction tokens generalizing stack with
  | nil =>
    match stack, failed with
    | [], failed =>
      obtain rfl := Except.error.inj failed
      rfl
    | _ :: _ :: _, failed =>
      obtain rfl := Except.error.inj failed
      rfl
  | cons t ts ih =>
    cases t with
    | literal v => exact ih failed
    | name x => exact ih failed
    | openParen =>
      obtain rfl := Except.error.inj failed
      rfl
    | closeParen =>
      obtain rfl := Except.error.inj failed
      rfl
    | operator o op =>
      match stack, failed with
      | [], failed =>
        obtain rfl := Except.error.inj failed
        rfl
      | [_], failed =>
        obtain rfl := Except.error.inj failed
        rfl
      | _ :: _ :: _, failed => exact ih failed

/-! ### Reading with a stack -/

section Reading

variable {m : Type → Type} [Monad m]

/-- What comes of an expression when every operator is applied to what its operands give. -/
def readM (leaf : Token α → m β) (apply : Op → List β → m β) : Expr α → m β
  | node _ op l r => do
    let a ← l.readM leaf apply
    let b ← r.readM leaf apply
    apply op [a, b]
  | e => leaf e.token

variable [LawfulMonad m]

theorem foldlM_reduceStep (leaf : Token α → m β) (apply : Op → List β → m β) (e : Expr α)
    (stack : List β) (rest : List (Token α)) :
    (e.toRpn ++ rest).foldlM (Rpn.reduceStep leaf apply) stack =
      e.readM leaf apply >>= fun b => rest.foldlM (Rpn.reduceStep leaf apply) (b :: stack) := by
  induction e generalizing stack rest with
  | lit v => simp [Rpn.reduceStep, readM, token]
  | var x => simp [Rpn.reduceStep, readM, token]
  | node o op l r ihl ihr =>
    -- the right operand is read with the result of the left one on the stack
    rw [toRpn_node, List.append_assoc, List.append_assoc, ihl]
    simp only [ihr, readM, bind_assoc]
    simp [Rpn.reduceStep, Op.arity]

theorem reduceM_toRpn (leaf : Token α → m β) (apply : Op → List β → m β) (e : Expr α) :
    Rpn.reduceM leaf apply e.toRpn = (fun b => [b]) <$> e.readM leaf apply := by
  have read := foldlM_reduceStep leaf apply e [] []
  rw [List.append_nil] at read
  simp [Rpn.reduceM, read]

end Reading

/-! ### Variables -/

def names (e : Expr α) : List String := Rpn.names e.toRpn

@[simp] theorem names_lit (v : α) : (lit v).names = [] := rfl

@[simp] theorem names_var (x : String) : (var x : Expr α).names = [x] := rfl

@[simp] theorem names_node (o : Origin) (op : Op) (l r : Expr α) :
    (node o op l r).names = l.names ++ r.names := by
  simp [names, Rpn.names]

end Expr

end Equate
