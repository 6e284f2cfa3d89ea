import Equate.Proofs.Repl.EquationLine
import Equate.Proofs.Repl.Failures
import Equate.Proofs.Repl.Frame

/-!
# Lines without an answer

Every failure is replied to, but for one: a number cannot be written with a precision that is too
large, and any precision from one on is accepted. `unanswered_iff`: a line has no answer exactly if
it shows a number and the precision in force is beyond what numbers are written with.
-/

namespace Equate

/-! ### Outcomes -/

theorem Precision.least_le {given : Precision.Given} {p : Int}
    (accepted : Precision.ofGiven given = .ok p) : Precision.least ≤ p := by
  obtain ⟨n?, -, accepted⟩ := Repl.bind_eq_ok accepted
  cases n? with
  | none => cases accepted
  | some n =>
    dsimp only at accepted
    split at accepted
    · cases accepted
    · rename_i large
      cases accepted
      exact Int.not_lt.mp large

/-- Solving fails only with faults of the equation and its values. -/
theorem Sides.Decides.expression {α : Type} [Arithmetic α] {env : Env α} {x : String} {s : Sides α}
    {outcome : Except Failure α} (decided : s.Decides env x outcome) {f : Failure}
    (failed : outcome = .error f) : ∃ e, f = .expression e := by
  subst failed
  unfold Sides.Decides at decided
  split at decided
  · obtain ⟨fault, -, same⟩ := decided
    exact ⟨fault, Except.error.inj same⟩
  · split at decided
    · exact ⟨_, Except.error.inj decided⟩
    · split at decided
      · obtain ⟨y, -, -, -, same⟩ := decided
        exact ⟨_, Except.error.inj same⟩
      · obtain ⟨v, same⟩ := decided
        cases same

namespace Repl

/-! ### Lines that show numbers -/

/-- Whether the answer to a line has numbers in it that are written with the precision in force. -/
def Shows (s : Repl) : Line → Prop
  | .expression text => ∃ f : Formula Float, Formula.parse text = .ok f ∧
    ((∃ v, f.expr.eval s.bindings.env = .ok v) ∨
      (f.expr.simplify s.bindings.env).toRpn.any (·.isLiteral) = true)
  | .equation text => ¬ s.Unsolved text none
  | .directive (.bind (some pair)) => ¬ s.Fails (.directive (.bind (some pair)))
  | .directive .list => s.bindings ≠ []
  | .directive (.solve (some (target, text))) => ¬ s.Unsolved text (some target)
  | _ => False

/-- Whether there is a reply except where a number cannot be written with the precision. -/
structure Speaks (shows : Prop) (p : Int) (reply : Except Misuse Reply) : Prop where
  missing_iff : (∃ m, reply = .error m) ↔ shows ∧ ¬ (0 ≤ p ∧ p ≤ 2147483647)
  kind : ∀ m, reply = .error m → m.kind = .value

theorem speaks_ok {shows : Prop} {p : Int} {reply : Reply} (silent : ¬ shows) :
    Speaks shows p (.ok reply) where
  missing_iff := ⟨nofun, fun shown => absurd shown.1 silent⟩
  kind _ := nofun

variable (s : Repl)

theorem speaks_of_written {shows : Prop} {reply : Except Misuse Reply} (shown : shows)
    (written : ∀ n, Number.checkPrecision s.precision = .ok n → ∃ r, reply = .ok r)
    (refused : ∀ m, Number.checkPrecision s.precision = .error m → reply = .error m) :
    Speaks shows s.precision reply := by
  by_cases writable : 0 ≤ s.precision ∧ s.precision ≤ 2147483647
  · obtain ⟨r, rfl⟩ := written _ (Number.checkPrecision_ok writable.1 writable.2)
    exact ⟨⟨nofun, fun missing => absurd writable missing.2⟩, fun _ => nofun⟩
  · obtain ⟨m, failed, kind⟩ := Number.checkPrecision_error writable
    rw [refused m failed]
    refine ⟨⟨fun _ => ⟨shown, writable⟩, fun _ => ⟨m, rfl⟩⟩, ?_⟩
    rintro _ ⟨⟩
    exact kind

theorem display_eq (v : Float) :
    s.display v = (Number.checkPrecision s.precision).map fun n => Number.rounded n v := rfl

theorem speaks_display {shows : Prop} (shown : shows) (v : Float) (f : String → Reply) :
    Speaks shows s.precision ((s.display v).map f) := by
  apply s.speaks_of_written shown
  · intro n read
    rw [display_eq, read]
    exact ⟨_, rfl⟩
  · intro m refused
    rw [display_eq, refused]
    rfl

theorem bind_mapM_ok {β γ : Type} {f : β → Except Misuse γ} (each : ∀ b, ∃ c, f b = .ok c)
    (bs : List β) (g : List γ → Reply) : ∃ r, (do return g (← bs.mapM f)) = Except.ok r := by
  induction bs generalizing g with
  | nil => exact ⟨g [], rfl⟩
  | cons b bs ih =>
    obtain ⟨c, first⟩ := each b
    obtain ⟨r, rest⟩ := ih fun cs => g (c :: cs)
    refine ⟨r, ?_⟩
    rw [List.mapM_cons, first, ← rest]
    simp only [bind_assoc, pure_bind]
    rfl

theorem speaks_list : Speaks (s.bindings ≠ []) s.precision s.list := by
  unfold list
  split
  · rename_i none
    exact speaks_ok (not_not_intro (List.isEmpty_iff.mp none))
  · rename_i some_binding
    rw [List.isEmpty_iff] at some_binding
    apply s.speaks_of_written some_binding
    · intro n read
      refine bind_mapM_ok (fun p => ⟨p.1 ++ " = " ++ Number.rounded n p.2, ?_⟩) _ _
      simp only [display_eq, read]
      rfl
    · intro m refused
      cases sorted : s.bindings.sorted with
      | nil =>
        have same : s.bindings.Perm s.bindings.sorted := (List.mergeSort_perm _ _).symm
        rw [sorted] at same
        exact absurd same.eq_nil some_binding
      | cons p rest =>
        rw [List.mapM_cons]
        simp only [display_eq, refused]
        rfl

theorem speaks_showSolution {shows : Prop} (shown : shows) (x : String) (eq : Equation Float)
    (v : Float) (run : Solving Float) :
    Speaks shows s.precision (s.showSolution x eq v run) := by
  apply s.speaks_of_written shown
  · intro n read
    rw [showSolution, display_eq, read]
    exact ⟨_, (apply_ite Except.ok ..).symm⟩
  · intro m refused
    rw [showSolution, display_eq, refused]
    rfl

theorem speaks_solve (text : String) (target : Option String) :
    Speaks (¬ s.Unsolved text target) s.precision (s.solve text target).reply := by
  unfold solve Unsolved
  cases parsed : (Equation.parse text : Except ExprError (Equation Float)) with
  | error e => exact speaks_ok (not_not_intro trivial)
  | ok eq =>
    obtain ⟨lhs, rhs, rfl⟩ := Equation.eq_between_of_parse parsed
    dsimp only
    rw [targetOf_eq]
    rcases s.asked (.between lhs rhs) target with _ | ⟨x, _ | ⟨y, more⟩⟩
    · exact speaks_ok (not_not_intro trivial)
    · dsimp only
      cases outcome : ((Equation.between lhs rhs).solving s.bindings.env x).outcome with
      | error f =>
        obtain ⟨e, rfl⟩ :=
          (Equation.solving_decided s.bindings.env x lhs rhs).expression outcome
        exact speaks_ok (not_not_intro ⟨e, rfl⟩)
      | ok v => exact s.speaks_showSolution nofun x _ v _
    · exact speaks_ok (not_not_intro trivial)

theorem readValue_error {text : String} {f : Failure} (failed : s.readValue text = .error f) :
    ∃ e, f = .expression e := by
  unfold readValue at failed
  split at failed
  · cases failed
  · split at failed
    · obtain ⟨x, rfl⟩ := s.eval_error failed
      exact ⟨_, rfl⟩
    · cases failed
      exact ⟨_, rfl⟩

theorem speaks_bind (name text : String) :
    Speaks (s.Shows (.directive (.bind (some (name, text))))) s.precision
      (s.bind name text).reply := by
  unfold bind
  by_cases named : isName name = true
  · rw [if_pos named]
    cases value : s.readValue text with
    | error f =>
      obtain ⟨e, rfl⟩ := s.readValue_error value
      exact speaks_ok (not_not_intro (Or.inr ⟨e, value⟩))
    | ok v =>
      refine s.speaks_display ?_ v fun shown => .said (name ++ " = " ++ shown)
      rintro (unnamed | ⟨e, refused⟩)
      · rw [named] at unnamed
        cases unnamed
      · rw [value] at refused
        cases refused
  · rw [if_neg named]
    exact speaks_ok (not_not_intro (Or.inl (Bool.eq_false_of_not_eq_true named)))

theorem speaks_evaluate (text : String) :
    Speaks (s.Shows (.expression text)) s.precision (s.evaluate text) := by
  unfold evaluate
  cases parsed : (Formula.parse text : Except ExprError (Formula Float)) with
  | error e =>
    apply speaks_ok
    rintro ⟨f, read, -⟩
    rw [parsed] at read
    cases read
  | ok f =>
    dsimp only
    cases value : f.expr.eval s.bindings.env with
    | ok v => exact s.speaks_display ⟨f, parsed, Or.inl ⟨v, value⟩⟩ v .said
    | error e =>
      obtain ⟨x, rfl⟩ := s.eval_error value
      dsimp only
      rw [Tree.infixText, Expr.toRpn_toTree, literalWriter]
      by_cases literal : (f.expr.simplify s.bindings.env).toRpn.any (·.isLiteral) = true
      · rw [if_pos literal]
        apply s.speaks_of_written ⟨f, parsed, Or.inr literal⟩
        · intro n read
          rw [read]
          exact ⟨_, rfl⟩
        · intro m refused
          rw [refused]
          rfl
      · rw [if_neg literal]
        apply speaks_ok
        rintro ⟨f', read, shown⟩
        rw [parsed] at read
        cases read
        rcases shown with ⟨v, impossible⟩ | shown
        · rw [value] at impossible
          cases impossible
        · exact literal shown

/-- Every line is replied to, except where a number cannot be written with the precision. -/
theorem speaks_answer (line : Line) : Speaks (s.Shows line) s.precision (s.answer line).reply := by
  cases line with
  | blank => exact speaks_ok not_false
  | equation text => exact s.speaks_solve text none
  | expression text => exact s.speaks_evaluate text
  | directive d =>
    cases d with
    | missing | unknown | help | quit | clear | trace => exact speaks_ok not_false
    | list => exact s.speaks_list
    | bind arguments =>
      cases arguments with
      | none => exact speaks_ok not_false
      | some pair => exact s.speaks_bind pair.1 pair.2
    | solve arguments =>
      cases arguments with
      | none => exact speaks_ok not_false
      | some pair => exact s.speaks_solve pair.2 (some pair.1)
    | unset | precision =>
      rw [answer, obey]
      repeat' split
      all_goals exact speaks_ok not_false
    | rpn | tree =>
      rw [answer, obey]
      unfold reading
      repeat' split
      all_goals exact speaks_ok not_false

/-! ### The precision in force -/

theorem precision_bind (name text : String) : (s.bind name text).state.precision = s.precision := by
  unfold bind
  repeat' split
  all_goals rfl

/-- Only a line that asks for it changes the precision, and only to one that is accepted. -/
theorem precision_process (line : String) :
    (s.process line).state.precision = s.precision ∨
      ∃ text, Line.parse line = .directive (.precision text) ∧
        Precision.parse text = .ok (s.process line).state.precision := by
  unfold process
  by_cases looks : (Line.parse line).looks = true
  · exact Or.inl (congrArg precision (state_of_looks looks))
  · cases read : Line.parse line with
    | blank | equation | expression => exact absurd (by rw [read]; rfl) looks
    | directive d =>
      rw [answer]
      cases d with
      | missing | unknown | help | list | solve | rpn | tree =>
        exact absurd (by rw [read]; rfl) looks
      | quit | clear | trace => exact Or.inl rfl
      | bind arguments =>
        cases arguments with
        | none => exact Or.inl rfl
        | some pair => exact Or.inl (s.precision_bind pair.1 pair.2)
      | unset name =>
        rw [obey]
        repeat' split
        all_goals exact Or.inl rfl
      | precision text =>
        rw [obey]
        split
        · exact Or.inl rfl
        · split
          · rename_i p accepted
            exact Or.inr ⟨text, rfl, accepted⟩
          · exact Or.inl rfl

variable {s}

theorem precision_after {good : Int → Prop} {lines : List String} (initial : good s.precision)
    (accepted : ∀ line ∈ lines, ∀ text p, Line.parse line = .directive (.precision text) →
      Precision.parse text = .ok p → good p) : good (s.after lines).precision := by
  induction lines generalizing s with
  | nil => exact initial
  | cons line lines ih =>
    rw [after_cons]
    refine ih ?_ fun line member => accepted line (List.mem_cons_of_mem _ member)
    rcases s.precision_process line with same | ⟨text, read, set⟩
    · rwa [same]
    · exact accepted line List.mem_cons_self text _ read set

/-! ### Sessions -/

theorem Judged.failed_iff {fails : Prop} {name : Option String} {reply : Except Misuse Reply}
    (judged : Judged fails name reply) : (∃ fault, reply = .ok (.failed fault)) ↔ fails := by
  match reply, judged with
  | .error m, fine => exact iff_of_false nofun fine
  | .ok (.failed fault), fails => exact iff_of_true ⟨fault, rfl⟩ fails
  | .ok .silent, fine => exact iff_of_false nofun fine.1
  | .ok (.said text), fine => exact iff_of_false nofun fine.1

/-- In every session a line has no answer exactly if it shows a number with a precision beyond
`2147483647`. A line that fails is told so, and no line can go without an answer as long as no such
precision was accepted. -/
theorem unanswered_iff {given : Precision.Given}
    (accepted : Precision.ofGiven given = .ok s.precision) (before : List String) (line : String) :
    let now := s.after before
    let reply := (now.process line).reply
    ((∃ m, reply = .error m) ↔ now.Shows (.parse line) ∧ 2147483647 < now.precision) ∧
    (∀ m, reply = .error m → m.kind = .value) ∧
    ((∃ fault, reply = .ok (.failed fault)) ↔ now.Fails (.parse line)) ∧
    (s.precision ≤ 2147483647 →
      (∀ earlier ∈ before, ∀ text p, Line.parse earlier = .directive (.precision text) →
        Precision.parse text = .ok p → p ≤ 2147483647) → ∃ r, reply = .ok r) := by
  intro now reply
  have speaks : Speaks (now.Shows (.parse line)) now.precision reply := now.speaks_answer _
  have least : 1 ≤ now.precision := by
    refine precision_after (Precision.least_le accepted) ?_
    exact fun _ _ _ _ _ set => Precision.least_le set
  have missing_iff : (∃ m, reply = .error m) ↔
      now.Shows (.parse line) ∧ 2147483647 < now.precision := by
    rw [speaks.missing_iff]
    refine and_congr_right fun _ => ?_
    omega
  refine ⟨missing_iff, speaks.kind, ?_, fun initial modest => ?_⟩
  · exact (now.judged_answer _).failed_iff
  · have small : now.precision ≤ 2147483647 := precision_after initial modest
    cases answered : reply with
    | ok r => exact ⟨r, rfl⟩
    | error m => exact absurd (missing_iff.mp ⟨m, answered⟩).2 (Int.not_lt.mpr small)

theorem unanswered_iff_of_value :
    let s := start 10
    let now := s.after [":let x 2"]
    Precision.ofGiven (.integer 10) = .ok s.precision ∧ s.precision ≤ 2147483647 ∧
      ∃ r, (now.process "x / 3").reply = .ok r := by
  intro s now
  have accepted : Precision.ofGiven (.integer 10) = .ok s.precision := rfl
  have small : s.precision ≤ 2147483647 := by decide
  obtain ⟨-, -, -, answered⟩ := unanswered_iff accepted [":let x 2"] "x / 3"
  refine ⟨accepted, small, answered small ?_⟩
  intro earlier member text p read
  rw [List.mem_singleton.mp member] at read
  cases read

/-- A precision that no number can be written with is accepted. Then even `1` has no answer. -/
theorem no_answer_beyond_precision :
    let s := start 10
    let now := s.after [":precision 3000000000"]
    Precision.ofGiven (.integer 10) = .ok s.precision ∧
      (s.process ":precision 3000000000").reply = .ok (.said "Precision set to: 3000000000") ∧
      (now.process "1").reply = .error .precisionTooBig :=
  ⟨rfl, rfl, rfl⟩

end Repl

end Equate
