import Equate.Repl.Run

/-!
# Runs over many lines

A script and a stream process their lines in the same way, and both end with the first line that
reads as a failure. `script_agrees_iff`: a script also ends with the line that stops the
interpreter, and goes as the stream of its lines up to there. A stream goes on after that line, so
the two agree exactly if what is left of the lines then changes nothing.
-/

namespace Equate.Repl

/-! ### The state after a line -/

theorem state_solve (s : Repl) (text : String) (target : Option String) :
    (s.solve text target).state = s := by
  unfold solve
  split
  · rfl
  · split <;> rfl

theorem state_reading (s : Repl) (text : String) (f : Formula Float → String) :
    (s.reading text f).state = s := by
  unfold reading
  split <;> rfl

theorem running_bind (s : Repl) (name text : String) :
    (s.bind name text).state.running = s.running := by
  unfold bind
  split
  · split <;> rfl
  · rfl

theorem running_obey (s : Repl) (d : Directive) :
    (s.obey d).state.running = (s.running && !(d matches .quit)) := by
  cases d with
  | missing | unknown | help | list | clear | trace => simp [obey] <;> rfl
  | quit => exact (Bool.and_false _).symm
  | bind arguments =>
    rw [Bool.not_false, Bool.and_true]
    cases arguments with
    | none => rfl
    | some pair => exact s.running_bind pair.1 pair.2
  | solve arguments =>
    rw [Bool.not_false, Bool.and_true]
    cases arguments with
    | none => rfl
    | some pair => exact congrArg running (s.state_solve pair.2 (some pair.1))
  | unset name =>
    rw [Bool.not_false, Bool.and_true, obey]
    repeat' split
    all_goals rfl
  | rpn text | tree text =>
    rw [Bool.not_false, Bool.and_true, obey]
    split
    · rfl
    · rw [state_reading]
  | precision text =>
    rw [Bool.not_false, Bool.and_true, obey]
    repeat' split
    all_goals rfl

def quits (line : String) : Bool :=
  match Line.parse line with
  | .directive .quit => true
  | _ => false

theorem running_process (s : Repl) (line : String) :
    (s.process line).state.running = (s.running && !quits line) := by
  unfold process quits
  cases Line.parse line with
  | blank => exact (Bool.and_true _).symm
  | directive d =>
    refine (s.running_obey d).trans ?_
    cases d <;> rfl
  | equation text => exact (congrArg running (s.state_solve text none)).trans (Bool.and_true _).symm
  | expression text => exact (Bool.and_true _).symm

def after (s : Repl) (lines : List String) : Repl :=
  lines.foldl (fun s line => (s.process line).state) s

@[simp] theorem after_nil (s : Repl) : s.after [] = s := rfl

theorem after_cons (s : Repl) (line : String) (lines : List String) :
    s.after (line :: lines) = (s.process line).state.after lines := by
  rw [after, List.foldl_cons, after]

theorem running_after (s : Repl) (lines : List String) :
    (s.after lines).running = (s.running && !lines.any quits) := by
  induction lines generalizing s with
  | nil => exact (Bool.and_true _).symm
  | cons line lines ih => rw [after_cons, ih, running_process, List.any_cons, Bool.not_or,
      Bool.and_assoc]

/-! ### Lines that end a run -/

/-- Whether a line is answered, and with nothing that reads as a failure. -/
def passes (s : Repl) (line : String) : Bool :=
  match (s.process line).reply with
  | .ok reply => !looksFailed reply.printed
  | .error _ => false

/-- Whether a line leaves a script something to go on with: it passes, and the interpreter still
runs after it. -/
def goesOn (s : Repl) (line : String) : Bool :=
  s.passes line && (s.process line).state.running

/-- The lines up to the first after which a script does not go on, and this one. -/
def served (s : Repl) : List String → List String
  | [] => []
  | line :: lines => line :: if s.goesOn line then (s.process line).state.served lines else []

theorem served_of_goesOn {s : Repl} {line : String} (on : s.goesOn line = true)
    (lines : List String) :
    s.served (line :: lines) = line :: (s.process line).state.served lines := by
  rw [served, if_pos on]

theorem served_of_not_goesOn {s : Repl} {line : String} (off : s.goesOn line ≠ true)
    (lines : List String) : s.served (line :: lines) = [line] := by
  rw [served, if_neg off]

/-- Whether two runs end alike: in the same way, in the same state and with the same log. -/
structure Run.Agrees (a b : Run) : Prop where
  ending : a.ending = b.ending
  state : a.state = b.state
  log : a.output.log = b.output.log

theorem Run.Agrees.symm {a b : Run} (agrees : a.Agrees b) : b.Agrees a :=
  ⟨agrees.ending.symm, agrees.state.symm, agrees.log.symm⟩

theorem Run.Agrees.trans {a b c : Run} (first : a.Agrees b) (second : b.Agrees c) : a.Agrees c :=
  ⟨first.ending.trans second.ending, first.state.trans second.state, first.log.trans second.log⟩

/-! ### What a run writes -/

namespace Output

theorem append_empty (o : Output) : o ++ Output.empty = o := by
  change Output.mk (o.stdout ++ "") (o.stderr ++ "") (o.log ++ []) = o
  simp

theorem empty_append (o : Output) : Output.empty ++ o = o := by
  change Output.mk ("" ++ o.stdout) ("" ++ o.stderr) ([] ++ o.log) = o
  simp

theorem append_assoc (a b c : Output) : a ++ b ++ c = a ++ (b ++ c) := by
  change Output.mk (a.stdout ++ b.stdout ++ c.stdout) (a.stderr ++ b.stderr ++ c.stderr)
      (a.log ++ b.log ++ c.log) =
    Output.mk (a.stdout ++ (b.stdout ++ c.stdout)) (a.stderr ++ (b.stderr ++ c.stderr))
      (a.log ++ (b.log ++ c.log))
  simp only [String.append_assoc, List.append_assoc]

@[simp] theorem log_append (a b : Output) : (a ++ b).log = a.log ++ b.log := rfl

@[simp] theorem log_report (log : List LogRecord) : (report log).log = log := rfl

@[simp] theorem log_warn (text : String) : (warn text).log = [] := rfl

theorem log_printed (silent : Prop) [Decidable silent] (text : String) :
    (if silent then empty else print text).log = [] := by
  split <;> rfl

end Output

theorem Run.after_exit (s : Repl) (code : Nat) (o : Output) :
    (Run.exit s code).after o = ⟨o, .exit code, s⟩ := by
  rw [Run.exit, Run.after, Output.append_empty]

@[simp] theorem Run.ending_after (r : Run) (o : Output) : (r.after o).ending = r.ending := rfl

@[simp] theorem Run.state_after (r : Run) (o : Output) : (r.after o).state = r.state := rfl

theorem Run.after_empty (r : Run) : r.after .empty = r := by
  rw [Run.after, Output.empty_append]

theorem Run.after_after (r : Run) (o o' : Output) : (r.after o').after o = r.after (o ++ o') := by
  rw [Run.after, Run.after, Run.after, Output.append_assoc]

/-! ### A line, and those after it -/

theorem runLine_spec (s : Repl) (line : String) :
    (s.runLine line).state = (s.process line).state ∧
    (s.runLine line).output.log = (s.process line).log ∧
    ((s.runLine line).ending = .exit 0 ↔ s.passes line = true) := by
  unfold runLine passes
  simp only [runStream]
  cases (s.process line).reply with
  | error m => simp
  | ok reply =>
    by_cases failed : looksFailed reply.printed = true
    · simp [failed, Run.after_exit, Output.log_printed]
    · simp [failed, Run.after_exit, Output.log_printed]

/-- A stream goes on after a line that passes. -/
theorem runStream_cons (s : Repl) (line : String) (lines : List String) :
    s.runStream (line :: lines) =
      if s.passes line then ((s.process line).state.runStream lines).after (s.runLine line).output
      else s.runLine line := by
  unfold runLine passes
  simp only [runStream]
  cases (s.process line).reply with
  | error m => rfl
  | ok reply =>
    by_cases failed : looksFailed reply.printed = true
    · simp [failed]
    · simp [failed, Run.after_exit]

section Script

variable (path : String) (quiet : Bool)

/-- A script goes on after a line that passes and does not stop the interpreter. -/
theorem runScript_cons (s : Repl) (number : Nat) (line : String) (lines : List String) :
    s.runScript path quiet number (line :: lines) =
      let run := s.runScript path quiet number [line]
      if s.goesOn line then
        ((s.process line).state.runScript path quiet (number + 1) lines).after run.output
      else run := by
  unfold goesOn passes
  simp only [runScript]
  cases (s.process line).reply with
  | error m => rfl
  | ok reply =>
    by_cases failed : looksFailed reply.printed = true
    · simp [failed]
    · by_cases running : (s.process line).state.running = true
      · simp [failed, running, Run.after_exit]
      · simp [failed, running]

theorem runScript_line_agrees (s : Repl) (number : Nat) (line : String) :
    (s.runScript path quiet number [line]).Agrees (s.runLine line) := by
  unfold runLine
  simp only [runScript, runStream, ite_self]
  cases (s.process line).reply with
  | error m => exact ⟨rfl, rfl, rfl⟩
  | ok reply =>
    by_cases failed : looksFailed reply.printed = true
    · constructor <;> simp [failed, Run.after_exit, Output.log_printed]
    · constructor <;> simp [failed, Run.after_exit, Output.log_printed]

end Script

theorem Run.Agrees.after {a b : Run} (agrees : a.Agrees b) {o o' : Output} (same : o.log = o'.log) :
    (a.after o).Agrees (b.after o') where
  ending := agrees.ending
  state := agrees.state
  log := by rw [Run.after, Run.after, Output.log_append, Output.log_append, same, agrees.log]

/-! ### Streams in two parts -/

section Parts

variable {s : Repl} {xs : List String}

theorem runStream_state (passed : (s.runStream xs).ending = .exit 0) :
    (s.runStream xs).state = s.after xs := by
  induction xs generalizing s with
  | nil => rfl
  | cons line xs ih =>
    rw [runStream_cons] at passed ⊢
    by_cases pass : s.passes line = true
    · rw [if_pos pass] at passed ⊢
      rw [Run.ending_after] at passed
      rw [Run.state_after, after_cons, ih passed]
    · rw [if_neg pass, (s.runLine_spec line).2.2] at passed
      exact absurd passed pass

theorem runStream_append (passed : (s.runStream xs).ending = .exit 0) (ys : List String) :
    s.runStream (xs ++ ys) = ((s.after xs).runStream ys).after (s.runStream xs).output := by
  induction xs generalizing s with
  | nil => exact (Run.after_empty _).symm
  | cons line xs ih =>
    rw [runStream_cons] at passed
    by_cases pass : s.passes line = true
    · rw [if_pos pass, Run.ending_after] at passed
      rw [List.cons_append, runStream_cons, runStream_cons, if_pos pass, if_pos pass, ih passed,
        after_cons, Run.after_after]
      rfl
    · rw [if_neg pass, (s.runLine_spec line).2.2] at passed
      exact absurd passed pass

theorem runStream_append_of_stopped (stopped : (s.runStream xs).ending ≠ .exit 0)
    (ys : List String) : s.runStream (xs ++ ys) = s.runStream xs := by
  induction xs generalizing s with
  | nil => exact absurd rfl stopped
  | cons line xs ih =>
    rw [runStream_cons] at stopped
    rw [List.cons_append, runStream_cons, runStream_cons]
    by_cases pass : s.passes line = true
    · rw [if_pos pass, Run.ending_after] at stopped
      rw [if_pos pass, if_pos pass, ih stopped]
    · rw [if_neg pass, if_neg pass]

end Parts

/-! ### Scripts and streams -/

theorem served_prefix (s : Repl) (lines : List String) : s.served lines <+: lines := by
  induction lines generalizing s with
  | nil => exact List.nil_prefix
  | cons line lines ih =>
    by_cases on : s.goesOn line = true
    · rw [served_of_goesOn on]
      exact List.cons_prefix_cons.mpr ⟨rfl, ih _⟩
    · rw [served_of_not_goesOn on]
      exact List.cons_prefix_cons.mpr ⟨rfl, List.nil_prefix⟩

theorem runScript_served (path : String) (quiet : Bool) (s : Repl) (number : Nat)
    (lines : List String) :
    s.runScript path quiet number lines = s.runScript path quiet number (s.served lines) := by
  induction lines generalizing s number with
  | nil => rfl
  | cons line lines ih =>
    rw [runScript_cons]
    by_cases on : s.goesOn line = true
    · rw [served_of_goesOn on, runScript_cons path quiet s number line (served _ _)]
      simp only [if_pos on, ← ih]
    · rw [served_of_not_goesOn on]
      exact if_neg on

/-- A script goes as the stream of the lines that it serves. -/
theorem runScript_agrees (path : String) (quiet : Bool) (s : Repl) (number : Nat)
    (lines : List String) :
    (s.runScript path quiet number lines).Agrees (s.runStream (s.served lines)) ∧
      (s.runScript path quiet number lines).state = s.after (s.served lines) := by
  induction lines generalizing s number with
  | nil => exact ⟨⟨rfl, rfl, rfl⟩, rfl⟩
  | cons line lines ih =>
    have one := runScript_line_agrees path quiet s number line
    rw [runScript_cons]
    by_cases on : s.goesOn line = true
    · have pass : s.passes line = true := (Bool.and_eq_true_iff.mp on).1
      rw [served_of_goesOn on, runStream_cons, if_pos pass]
      simp only [if_pos on, Run.state_after, after_cons]
      exact ⟨(ih _ _).1.after one.log, (ih _ _).2⟩
    · rw [served_of_not_goesOn on, after_cons]
      simp only [if_neg on]
      exact ⟨one, one.state.trans (s.runLine_spec line).1⟩

/-- Lines are left out only after one that fails or stops the interpreter. -/
theorem served_eq_self {s : Repl} {lines : List String}
    (passed : (s.runStream (s.served lines)).ending = .exit 0)
    (running : (s.after (s.served lines)).running = true) : s.served lines = lines := by
  induction lines generalizing s with
  | nil => rfl
  | cons line lines ih =>
    by_cases on : s.goesOn line = true
    · have pass : s.passes line = true := (Bool.and_eq_true_iff.mp on).1
      rw [served_of_goesOn on, runStream_cons, if_pos pass, Run.ending_after] at passed
      rw [served_of_goesOn on, after_cons] at running
      rw [served_of_goesOn on, ih passed running]
    · rw [served_of_not_goesOn on] at passed
      rw [served_of_not_goesOn on, after_cons, after_nil] at running
      rw [← runLine, (s.runLine_spec line).2.2] at passed
      exact absurd (Bool.and_eq_true_iff.mpr ⟨passed, running⟩) on

/-- What follows the lines of a stream makes no difference exactly if the stream had ended before,
or if it does nothing. -/
theorem runStream_append_agrees_iff (s : Repl) (xs ys : List String) :
    (s.runStream xs).Agrees (s.runStream (xs ++ ys)) ↔ (s.runStream xs).ending ≠ .exit 0 ∨
      ((s.after xs).runStream ys).Agrees (.exit (s.after xs) 0) := by
  by_cases passed : (s.runStream xs).ending = .exit 0
  · have state : (s.runStream xs).state = s.after xs := runStream_state passed
    rw [runStream_append passed]
    constructor
    · rintro ⟨ending, left, log⟩
      refine Or.inr ⟨ending.symm.trans passed, left.symm.trans state, ?_⟩
      rw [Run.after, Output.log_append, List.self_eq_append_right] at log
      exact log
    · rintro (failed | ⟨ending, left, log⟩)
      · exact absurd passed failed
      · refine ⟨passed.trans ending.symm, state.trans left.symm, ?_⟩
        rw [Run.after, Output.log_append, List.self_eq_append_right]
        exact log
  · rw [runStream_append_of_stopped passed]
    exact iff_of_true ⟨rfl, rfl, rfl⟩ (Or.inl passed)

/-- A script processes the lines up to the first that fails or stops the interpreter, as a stream of
these lines does, and what comes after them is of no effect. The stream of all lines ends alike if
that last line failed, or else if what comes after it does nothing. -/
theorem script_agrees_iff (path : String) (quiet : Bool) (s : Repl) (number : Nat)
    (lines : List String) :
    let done := s.served lines
    let rest := lines.drop done.length
    let script := s.runScript path quiet number lines
    done ++ rest = lines ∧ script = s.runScript path quiet number done ∧
    script.Agrees (s.runStream done) ∧ script.state = s.after done ∧
    (script.state.running = (s.running && !done.any quits)) ∧
    (done = lines ∨ script.ending ≠ .exit 0 ∨ script.state.running = false) ∧
    (script.Agrees (s.runStream lines) ↔ script.ending ≠ .exit 0 ∨
      ((s.after done).runStream rest).Agrees (.exit (s.after done) 0)) := by
  intro done rest script
  obtain ⟨agrees, state⟩ := runScript_agrees path quiet s number lines
  have parts : done ++ rest = lines := List.prefix_iff_eq_append.mp (s.served_prefix lines)
  refine ⟨parts, runScript_served path quiet s number lines, agrees, state, ?_, ?_, ?_⟩
  · exact (congrArg running state).trans (s.running_after done)
  · by_cases passed : script.ending = .exit 0
    · cases running : script.state.running with
      | false => exact Or.inr (Or.inr rfl)
      | true =>
        exact Or.inl (served_eq_self (agrees.ending.symm.trans passed)
          ((congrArg Repl.running state).symm.trans running))
    · exact Or.inr (Or.inl passed)
  · have compared := s.runStream_append_agrees_iff done rest
    rw [parts, ← agrees.ending] at compared
    rw [← compared]
    exact ⟨agrees.symm.trans, agrees.trans⟩

/-- The command `:frob` is unknown. A script does not get to it after `:quit`, a stream does and
fails. -/
theorem stream_goes_on_after_quit :
    let lines := [":quit", ":frob"]
    ((start 10).runScript "s" false 1 lines).ending = .exit 0 ∧
      ((start 10).runStream lines).ending = .exit 1 := by
  exact ⟨rfl, rfl⟩

end Equate.Repl
