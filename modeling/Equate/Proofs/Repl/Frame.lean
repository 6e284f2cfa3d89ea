import Equate.Proofs.Repl.Runs

/-!
# What lines leave alone

Most lines only look at the state (`Line.looks`), and those that fail leave it as it is, too. The
others change the part of it that they name: `Line.Changes` tells what that is. A line that only
looks can therefore be left out of any conversation, and the other lines are answered as before
(`responses_eraseIdx`).
-/

namespace Equate

/-! ### Bindings -/

namespace Bindings

variable {α : Type}

/-- Whether bindings differ in one name alone, which then has the given value or none. -/
structure Rebinds (x : String) (value : Option α) (b b' : Bindings α) : Prop where
  here : b'.get? x = value
  elsewhere : ∀ y, y ≠ x → b'.get? y = b.get? y
  rest : b'.erase x = b.erase x

theorem get?_cons (x y : String) (v : α) (b : Bindings α) :
    get? ((y, v) :: b) x = if x = y then some v else b.get? x := by
  rw [get?, List.lookup_cons]
  by_cases same : x = y
  · simp [same]
  · simp [same, beq_eq_false_iff_ne.mpr same, get?]

theorem get?_erase (x y : String) (b : Bindings α) :
    (b.erase x).get? y = if y = x then none else b.get? y := by
  induction b with
  | nil => simp [erase, get?]
  | cons p b ih =>
    obtain ⟨z, v⟩ := p
    unfold erase at ih ⊢
    by_cases first : z = x
    · subst first
      simp only [List.filter_cons, bne_self_eq_false, Bool.false_eq_true, if_false, ih, get?_cons]
      by_cases same : y = z <;> simp [same]
    · by_cases same : y = z
      · subst same
        simp [first, get?_cons]
      · simp [first, get?_cons, same, ih]

theorem Rebinds.of_rest {x : String} {value : Option α} {b b' : Bindings α}
    (here : b'.get? x = value) (rest : b'.erase x = b.erase x) : b.Rebinds x value b' where
  here := here
  elsewhere y other := by
    have same := congrArg (get? · y) rest
    simpa only [get?_erase, if_neg other] using same
  rest := rest

theorem rebinds_put (x : String) (v : α) (b : Bindings α) : b.Rebinds x (some v) (b.put x v) := by
  apply Rebinds.of_rest
  · induction b with
    | nil => simp [put, get?_cons]
    | cons p b ih =>
      rw [put]
      split
      · rw [get?_cons, if_pos rfl]
      · rename_i other
        rw [get?_cons, if_neg (Ne.symm other), ih]
  · induction b with
    | nil => simp [put, erase]
    | cons p b ih =>
      unfold erase at ih ⊢
      rw [put]
      split
      · rename_i same
        simp [same]
      · rw [List.filter_cons, List.filter_cons, ih]

theorem rebinds_erase (x : String) (b : Bindings α) : b.Rebinds x none (b.erase x) := by
  apply Rebinds.of_rest
  · rw [get?_erase, if_pos rfl]
  · simp [erase]

end Bindings

namespace Repl

/-! ### What a line may change -/

/-- Whether a line asks for no change: it is no directive that makes one, or lacks its argument. -/
def Line.looks : Line → Bool
  | .directive (.bind arguments) => arguments.isNone
  | .directive (.unset argument) | .directive (.precision argument) => argument.isEmpty
  | .directive .clear | .directive (.trace _) | .directive .quit => false
  | _ => true

/-- What a line changes that asks for a change and does not fail. -/
def Line.Changes (s s' : Repl) : Line → Prop
  | .directive (.bind (some (name, text))) => s' = { s with bindings := s'.bindings } ∧
    ∃ v, s.readValue text = .ok v ∧ s.bindings.Rebinds name (some v) s'.bindings
  | .directive (.unset name) => s' = { s with bindings := s'.bindings } ∧
    (s.bindings.get? name).isSome ∧ s.bindings.Rebinds name none s'.bindings
  | .directive .clear => s' = { s with bindings := [] }
  | .directive (.trace setting) => s' = { s with trace := s'.trace } ∧
    (setting ∈ ["on", "true", "1"] → s'.trace = true) ∧
    (setting ∈ ["off", "false", "0"] → s'.trace = false) ∧
    (setting ∉ ["on", "true", "1", "off", "false", "0"] → s'.trace = !s.trace)
  | .directive (.precision text) => s' = { s with precision := s'.precision } ∧
    Precision.parse text = .ok s'.precision
  | .directive .quit => s' = { s with running := false }
  | _ => s' = s

variable {s : Repl}

theorem state_of_looks {line : Line} (looks : line.looks = true) : (s.answer line).state = s := by
  cases line with
  | blank => rfl
  | equation text => exact s.state_solve text none
  | expression text => rfl
  | directive d =>
    cases d with
    | missing | unknown | help | list => rfl
    | quit | clear | trace => cases looks
    | bind arguments =>
      cases arguments with
      | none => rfl
      | some pair => cases looks
    | solve arguments =>
      cases arguments with
      | none => rfl
      | some pair => exact s.state_solve pair.2 (some pair.1)
    | unset argument | precision argument =>
      have empty : argument.isEmpty = true := looks
      rw [answer, obey, if_pos empty]
      rfl
    | rpn text | tree text =>
      rw [answer, obey]
      split
      · rfl
      · exact s.state_reading text _

section Changing

variable {reply : Reply}

theorem changes_bind {name text : String}
    (answered : (s.obey (.bind (some (name, text)))).reply = .ok reply) :
    if reply.isFailure then (s.obey (.bind (some (name, text)))).state = s
    else (Line.directive (.bind (some (name, text)))).Changes s
      (s.obey (.bind (some (name, text)))).state := by
  rw [obey, bind] at answered ⊢
  by_cases named : isName name = true
  · rw [if_pos named] at answered ⊢
    cases value : s.readValue text with
    | error f =>
      rw [value] at answered
      cases f with
      | misuse m => cases answered
      | expression e =>
        cases answered
        exact rfl
    | ok v =>
      simp only [value] at answered ⊢
      cases shown : display { s with bindings := s.bindings.put name v } v with
      | error m =>
        rw [shown] at answered
        cases answered
      | ok text =>
        rw [shown] at answered
        cases answered
        exact ⟨rfl, v, value, Bindings.rebinds_put name v s.bindings⟩
  · rw [if_neg named] at answered ⊢
    cases answered
    exact rfl

theorem changes_unset {name : String} (some_name : ¬ name.isEmpty = true)
    (answered : (s.obey (.unset name)).reply = .ok reply) :
    if reply.isFailure then (s.obey (.unset name)).state = s
    else (Line.directive (.unset name)).Changes s (s.obey (.unset name)).state := by
  rw [obey, if_neg some_name] at answered ⊢
  cases bound : s.bindings.get? name with
  | none =>
    rw [bound] at answered
    cases answered
    exact rfl
  | some v =>
    rw [bound] at answered
    cases answered
    exact ⟨rfl, by rw [bound]; rfl, Bindings.rebinds_erase name s.bindings⟩

theorem changes_precision {text : String} (some_text : ¬ text.isEmpty = true)
    (answered : (s.obey (.precision text)).reply = .ok reply) :
    if reply.isFailure then (s.obey (.precision text)).state = s
    else (Line.directive (.precision text)).Changes s (s.obey (.precision text)).state := by
  rw [obey, if_neg some_text] at answered ⊢
  cases read : Precision.parse text with
  | error m =>
    rw [read] at answered
    cases answered
    exact rfl
  | ok p =>
    rw [read] at answered
    cases answered
    exact ⟨rfl, read⟩

theorem changes_trace (s : Repl) (setting : String) :
    (Line.directive (.trace setting)).Changes s (s.obey (.trace setting)).state := by
  refine ⟨rfl, fun on => ?_, fun off => ?_, fun other => ?_⟩
  · simp only [List.mem_cons, List.not_mem_nil, or_false] at on
    rcases on with rfl | rfl | rfl <;> rfl
  · simp only [List.mem_cons, List.not_mem_nil, or_false] at off
    rcases off with rfl | rfl | rfl <;> rfl
  · simp only [List.mem_cons, List.not_mem_nil, or_false, not_or] at other
    simp [obey, setTrace, Response.said, Response.say, other]

end Changing

theorem state_of_answer {line : Line} {reply : Reply}
    (answered : (s.answer line).reply = .ok reply) :
    if reply.isFailure || line.looks then (s.answer line).state = s
    else line.Changes s (s.answer line).state := by
  by_cases looks : line.looks = true
  · rw [looks, Bool.or_true, if_pos rfl]
    exact state_of_looks looks
  · rw [Bool.not_eq_true] at looks
    rw [looks, Bool.or_false]
    cases line with
    | blank | equation | expression => cases looks
    | directive d =>
      rw [answer] at answered ⊢
      cases d with
      | missing | unknown | help | list | solve | rpn | tree => cases looks
      | quit | clear =>
        cases answered
        exact rfl
      | trace setting =>
        cases answered
        exact changes_trace s setting
      | bind arguments =>
        cases arguments with
        | none => cases looks
        | some pair => exact changes_bind answered
      | unset name => exact changes_unset (ne_true_of_eq_false looks) answered
      | precision text => exact changes_precision (ne_true_of_eq_false looks) answered

/-! ### Lines left out -/

def responses (s : Repl) : List String → List Response
  | [] => []
  | line :: lines => s.process line :: (s.process line).state.responses lines

/-- The other lines are answered as if a line that only looks had not been there. -/
theorem responses_eraseIdx (s : Repl) {lines : List String} {i : Nat}
    (looks : ∀ line ∈ lines[i]?, (Line.parse line).looks = true) :
    s.responses (lines.eraseIdx i) = (s.responses lines).eraseIdx i := by
  induction lines generalizing s i with
  | nil => rfl
  | cons line lines ih =>
    cases i with
    | zero =>
      have kept : (s.process line).state = s := state_of_looks (looks line rfl)
      rw [responses, kept, List.eraseIdx_cons_zero, List.eraseIdx_cons_zero]
    | succ i =>
      rw [responses, List.eraseIdx_cons_succ, List.eraseIdx_cons_succ, responses, ih _ looks]

/-- A line that is answered leaves the state if it fails or only looks, and else changes what it
names. So lines that only look can be left out, and no other response is affected. -/
theorem lines_framed (s : Repl) :
    (∀ line reply, (s.process line).reply = .ok reply →
      if reply.isFailure || (Line.parse line).looks then (s.process line).state = s
      else (Line.parse line).Changes s (s.process line).state) ∧
    ∀ (lines : List String) (i : Nat), (∀ line ∈ lines[i]?, (Line.parse line).looks = true) →
      s.responses (lines.eraseIdx i) = (s.responses lines).eraseIdx i :=
  ⟨fun _ _ answered => state_of_answer answered, fun _ _ looks => s.responses_eraseIdx looks⟩

/-- `x` gets a value. The simplified expression after it can be left out. -/
theorem lines_framed_of_expression :
    let s := start 10
    let lines := [":let x 2", "x * (y + 1)", ":unset x", "x = 1"]
    (∃ reply, (s.process ":let x 2").reply = .ok reply ∧
      (Line.parse ":let x 2").Changes s (s.process ":let x 2").state) ∧
    (Line.parse "x * (y + 1)").looks = true ∧
      s.responses [":let x 2", ":unset x", "x = 1"] = (s.responses lines).eraseIdx 1 := by
  intro s lines
  obtain ⟨framed, left_out⟩ := lines_framed s
  refine ⟨⟨_, rfl, framed ":let x 2" _ rfl⟩, rfl, left_out lines 1 ?_⟩
  rintro line ⟨⟩
  exact rfl

end Repl

end Equate
