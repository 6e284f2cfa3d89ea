import Equate.Proofs.Workspace.WellFormed

/-!
# Building trees from postfix lists

A postfix list is read with a stack of trees. At every point the tokens read so far are those of the
trees on the stack, one tree after another; so a list fails either at its end, or at a token before
which there are too few trees (`ofRpn_eq_error_iff`). `ofRpn_outcome`: a list is built into a tree
exactly if the tree is well-formed and, walked children first, has this list of tokens.
-/

namespace Equate

variable {α : Type}

namespace Expr

theorem build_flatMap_toRpn (es stack : List (Expr α)) (rest : List (Token α)) :
    build stack (es.flatMap toRpn ++ rest) = build (es.reverse ++ stack) rest := by
  induction es generalizing stack with
  | nil => rfl
  | cons e es ih =>
    rw [List.flatMap_cons, List.append_assoc, build_toRpn, ih, List.reverse_cons, List.append_assoc]
    rfl

/-- Why tokens are not the list of one tree: after the lists of some trees they end, or a
parenthesis comes, or an operator that needs more operands. -/
inductive Unlisted : List (Token α) → ExprError → Prop
  | empty : Unlisted [] .emptyExpression
  | unjoined (es : List (Expr α)) (several : 1 < es.length) :
      Unlisted (es.flatMap toRpn) (.unjoinedOperands es.length)
  | paren (es : List (Expr α)) (t : Token α) (rest : List (Token α)) (paren : t.isParen = true) :
      Unlisted (es.flatMap toRpn ++ t :: rest) .strayParenthesis
  | operands (es : List (Expr α)) (o : Origin) (op : Op) (rest : List (Token α))
      (few : es.length < op.arity) :
      Unlisted (es.flatMap toRpn ++ .operator o op :: rest) (.missingOperands op es.length)

theorem Unlisted.family {tokens : List (Token α)} {fault : ExprError}
    (unlisted : Unlisted tokens fault) : fault.family = .grammar := by
  cases unlisted <;> rfl

/-- The tokens read so far are those of the trees on the stack. -/
theorem unlisted_of_build {stack : List (Expr α)} {tokens : List (Token α)} {fault : ExprError}
    (failed : build stack tokens = .error fault) :
    Unlisted (stack.reverse.flatMap toRpn ++ tokens) fault := by
  induction tokens generalizing stack with
  | nil =>
    rw [List.append_nil]
    match stack, failed with
    | [], failed =>
      obtain rfl := Except.error.inj failed
      exact .empty
    | e :: e' :: below, failed =>
      obtain rfl := Except.error.inj failed
      have unjoined := Unlisted.unjoined (e :: e' :: below).reverse (by simp)
      rwa [List.length_reverse] at unjoined
  | cons t ts ih =>
    cases t with
    | literal v => simpa using ih failed
    | name x => simpa using ih failed
    | openParen | closeParen =>
      obtain rfl := Except.error.inj failed
      exact .paren stack.reverse _ ts rfl
    | operator o op =>
      match stack, failed with
      | [], failed =>
        obtain rfl := Except.error.inj failed
        exact .operands [] o op ts (by simp [Op.arity])
      | [e], failed =>
        obtain rfl := Except.error.inj failed
        exact .operands [e] o op ts (by simp [Op.arity])
      | r :: l :: below, failed => simpa using ih failed

theorem build_few {stack : List (Expr α)} {op : Op} (few : stack.length < op.arity) (o : Origin)
    (rest : List (Token α)) :
    build stack (.operator o op :: rest) = .error (.missingOperands op stack.length) := by
  match stack, few with
  | [], _ | [_], _ => rfl

theorem build_several {stack : List (Expr α)} (several : 1 < stack.length) :
    build stack [] = .error (.unjoinedOperands stack.length) := by
  match stack, several with
  | _ :: _ :: _, _ => rfl

theorem ofRpn_eq_error_iff {tokens : List (Token α)} {fault : ExprError} :
    ofRpn tokens = .error fault ↔ Unlisted tokens fault := by
  constructor
  · intro failed
    exact unlisted_of_build failed
  · intro unlisted
    have read (es : List (Expr α)) (rest : List (Token α)) :
        ofRpn (es.flatMap toRpn ++ rest) = build es.reverse rest := by
      rw [ofRpn, build_flatMap_toRpn, List.append_nil]
    cases unlisted with
    | empty => rfl
    | unjoined es several =>
      rw [← List.append_nil (es.flatMap toRpn), read, build_several (by simpa using several),
        List.length_reverse]
    | paren es t rest paren =>
      rw [read]
      cases t <;> first | rfl | cases paren
    | operands es o op rest few =>
      rw [read, build_few (by simpa using few), List.length_reverse]

/-! ### Trees -/

theorem toTree_ofRpn_iff {tokens : List (Token α)} {t : Tree (Token α)} :
    toTree <$> ofRpn tokens = .ok t ↔ t.WellFormed ∧ t.toRpn = tokens := by
  constructor
  · intro built
    cases outcome : ofRpn tokens with
    | error fault =>
      rw [outcome] at built
      cases built
    | ok e =>
      rw [outcome] at built
      obtain rfl := Except.ok.inj built
      exact ⟨Tree.wellFormed_toTree e, e.toRpn_toTree.trans (ofRpn_eq_ok_iff.mp outcome).symm⟩
  · rintro ⟨wellFormed, rfl⟩
    obtain ⟨e, rfl⟩ := wellFormed.exists_expr
    rw [toRpn_toTree, ofRpn_toRpn]
    rfl

/-- A list of tokens is built into a tree exactly if the tree is well-formed and has these tokens,
children first. If there is no such tree, it is refused for a fault of grammar, and told which. -/
theorem ofRpn_outcome (tokens : List (Token α)) :
    (∀ t : Tree (Token α), toTree <$> ofRpn tokens = .ok t ↔
      t.WellFormed ∧ t.walkPostorder.map (·.payload) = tokens) ∧
    (∀ fault, ofRpn tokens = .error fault ↔ Unlisted tokens fault) ∧
    ((∃ fault, ofRpn tokens = .error fault ∧ fault.family = .grammar) ↔
      ¬ ∃ t : Tree (Token α), t.WellFormed ∧ t.walkPostorder.map (·.payload) = tokens) := by
  refine ⟨fun t => toTree_ofRpn_iff, fun fault => ofRpn_eq_error_iff, ?_⟩
  constructor
  · rintro ⟨fault, failed, -⟩ ⟨t, listed⟩
    have built := toTree_ofRpn_iff.mpr listed
    rw [failed] at built
    cases built
  · intro unlisted
    cases outcome : ofRpn tokens with
    | error fault => exact ⟨fault, rfl, (ofRpn_eq_error_iff.mp outcome).family⟩
    | ok e =>
      have built : toTree <$> ofRpn tokens = .ok e.toTree := by
        rw [outcome]
        rfl
      exact absurd ⟨_, toTree_ofRpn_iff.mp built⟩ unlisted

end Expr

end Equate
