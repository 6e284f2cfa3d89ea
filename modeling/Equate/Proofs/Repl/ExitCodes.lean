import Equate.CommandLine
import Equate.Proofs.Repl.Failures
import Equate.Proofs.Repl.Runs

/-!
# Exit codes

A run ends with exit code 1 at the first line that fails, as it should, or whose answer begins with
the name of a variable that reads as a failure. Bindings on the command line are refused in the same
way. `exit_code_iff` says so of all runs.
-/

namespace Equate

namespace Repl

/-! ### Runs that end at such a line -/

section Runs

variable {s : Repl} {line : String}

theorem runLine_exit_one : (s.runLine line).ending = .exit 1 ↔ s.StopsAt (.parse line) := by
  rw [stopsAt_iff, ← process]
  unfold runLine
  simp only [runStream]
  cases (s.process line).reply with
  | error m => simp
  | ok reply =>
    by_cases failed : looksFailed reply.printed = true
    · simp [failed, Run.exit]
    · simp [failed, Run.exit]

theorem not_stopsAt_of_passes (pass : s.passes line = true) : ¬ s.StopsAt (.parse line) := by
  rw [← runLine_exit_one, (s.runLine_spec line).2.2.mpr pass]
  exact nofun

theorem runStream_exit_one {lines : List String} :
    (s.runStream lines).ending = .exit 1 ↔ ∃ before line rest, lines = before ++ line :: rest ∧
      (s.runStream before).ending = .exit 0 ∧ (s.after before).StopsAt (.parse line) := by
  constructor
  · intro stopped
    induction lines generalizing s with
    | nil => cases stopped
    | cons line lines ih =>
      rw [runStream_cons] at stopped
      by_cases pass : s.passes line = true
      · rw [if_pos pass, Run.ending_after] at stopped
        obtain ⟨before, last, rest, rfl, passed, stops⟩ := ih stopped
        refine ⟨line :: before, last, rest, rfl, ?_, ?_⟩
        · rw [runStream_cons, if_pos pass, Run.ending_after, passed]
        · rw [after_cons]
          exact stops
      · rw [if_neg pass, runLine_exit_one] at stopped
        refine ⟨[], line, lines, rfl, rfl, ?_⟩
        rw [after_nil]
        exact stopped
  · rintro ⟨before, line, rest, rfl, passed, stops⟩
    rw [runStream_append passed, Run.ending_after, runStream_cons, if_neg, runLine_exit_one]
    · exact stops
    · exact fun pass => not_stopsAt_of_passes pass stops

/-- A script gets to a line if it passes all lines before it and the interpreter still runs. -/
theorem runScript_exit_one {path : String} {quiet : Bool} {number : Nat} {lines : List String} :
    (s.runScript path quiet number lines).ending = .exit 1 ↔ ∃ before line rest,
      lines = before ++ line :: rest ∧ (s.runScript path quiet number before).ending = .exit 0 ∧
      (before = [] ∨ (s.after before).running = true) ∧
      (s.after before).StopsAt (.parse line) := by
  constructor
  · intro stopped
    induction lines generalizing s number with
    | nil => cases stopped
    | cons line lines ih =>
      rw [runScript_cons] at stopped
      by_cases on : s.goesOn line = true
      · simp only [if_pos on, Run.ending_after] at stopped
        obtain ⟨before, last, rest, rfl, passed, running, stops⟩ := ih stopped
        refine ⟨line :: before, last, rest, rfl, ?_, Or.inr ?_, ?_⟩
        · rw [runScript_cons]
          simp only [if_pos on, Run.ending_after, passed]
        · rw [after_cons]
          rcases running with rfl | running
          · rw [after_nil]
            exact (Bool.and_eq_true_iff.mp on).2
          · exact running
        · rw [after_cons]
          exact stops
      · simp only [if_neg on] at stopped
        rw [(runScript_line_agrees ..).ending, runLine_exit_one] at stopped
        refine ⟨[], line, lines, rfl, rfl, Or.inl rfl, ?_⟩
        rw [after_nil]
        exact stopped
  · rintro ⟨before, line, rest, rfl, passed, running, stops⟩
    induction before generalizing s number with
    | nil =>
      rw [after_nil] at stops
      have off : s.goesOn line ≠ true :=
        fun on => not_stopsAt_of_passes (Bool.and_eq_true_iff.mp on).1 stops
      rw [List.nil_append, runScript_cons]
      simp only [if_neg off]
      rw [(runScript_line_agrees ..).ending, runLine_exit_one]
      exact stops
    | cons first before ih =>
      have running := running.resolve_left (List.cons_ne_nil first before)
      rw [after_cons] at running stops
      rw [runScript_cons] at passed
      by_cases on : s.goesOn first = true
      · simp only [if_pos on, Run.ending_after] at passed
        rw [List.cons_append, runScript_cons]
        simp only [if_pos on, Run.ending_after]
        exact ih passed (Or.inr running) stops
      · -- a line that is passed and not gone on from has stopped the interpreter
        simp only [if_neg on] at passed
        rw [(runScript_line_agrees ..).ending, (s.runLine_spec first).2.2] at passed
        rw [running_after, Bool.and_eq_true] at running
        exact absurd (Bool.and_eq_true_iff.mpr ⟨passed, running.1⟩) on

end Runs

end Repl

/-! ### Bindings on the command line -/

namespace CommandLine

open Repl (Line Output)

/-- The line that says the same as a binding, unless the binding has no `=`. -/
def bindingLine? (binding : String) : Option Line :=
  match cutEquals binding.toList with
  | (_, none) => none
  | (name, some value) =>
    some (.directive
      (.bind (some (Text.trim (String.ofList name), Text.trim (String.ofList value)))))

def bound (s : Repl) (bindings : List (Option String)) : Repl :=
  bindings.foldl (fun s binding =>
    match binding.bind bindingLine? with
    | some line => (s.answer line).state
    | none => s) s

/-- Whether a binding is refused: it has no `=`, or its line would end a run. -/
def Refuses (s : Repl) (binding : String) : Prop :=
  match bindingLine? binding with
  | some line => s.StopsAt line
  | none => True

variable {next : Repl → Plan} {s : Repl} {binding : String} {bindings : List (Option String)}

theorem bindAll_cons : bindAll next s (some binding :: bindings) =
    match bindingLine? binding with
    | none => invalidBinding binding "expected NAME=VALUE"
    | some line => match (s.answer line).reply with
      | .error m => .finish .empty (.broken m)
      | .ok reply =>
        if Repl.looksFailed reply.printed then invalidBinding binding reply.printed
        else bindAll next (s.answer line).state bindings := by
  rw [bindAll, bindingLine?]
  cases cutEquals binding.toList with
  | mk name value =>
    cases value with
    | none => rfl
    | some value =>
      dsimp only
      rewrite [Repl.answer, Repl.obey]
      generalize s.bind _ _ = response
      cases response.reply <;> rfl

theorem bound_some {line : Line} (read : bindingLine? binding = some line) :
    bound s (some binding :: bindings) = bound (s.answer line).state bindings := by
  rw [bound, List.foldl_cons, Option.bind_some, read, bound]

theorem bindAll_of_refuses (refused : Refuses s binding) :
    ∃ output, bindAll next s (some binding :: bindings) = .finish output (.exit 2) := by
  unfold Refuses at refused
  rw [bindAll_cons]
  cases read : bindingLine? binding with
  | none => exact ⟨_, rfl⟩
  | some line =>
    rw [read] at refused
    obtain ⟨reply, answered, failed⟩ := (s.stopsAt_iff line).mp refused
    dsimp only
    rw [answered]
    exact ⟨_, if_pos failed⟩

theorem bindAll_of_accepted (accepted : ¬ Refuses s binding) :
    (∃ m, ∀ next bindings,
      bindAll next s (some binding :: bindings) = .finish .empty (.broken m)) ∨
    ∀ next bindings, bindAll next s (some binding :: bindings) =
      bindAll next (bound s [some binding]) bindings := by
  unfold Refuses at accepted
  cases read : bindingLine? binding with
  | none =>
    rw [read] at accepted
    exact absurd trivial accepted
  | some line =>
    rw [read] at accepted
    dsimp only at accepted
    rw [s.stopsAt_iff] at accepted
    simp only [bindAll_cons, bound_some read, read]
    cases answered : (s.answer line).reply with
    | error m => exact Or.inl ⟨m, fun _ _ => rfl⟩
    | ok reply => exact Or.inr fun _ _ => if_neg fun failed => accepted ⟨reply, answered, failed⟩

theorem bound_cons (binding : Option String) :
    bound s (binding :: bindings) = bound (bound s [binding]) bindings := by
  rw [bound, bound, bound, List.foldl_cons, List.foldl_cons, List.foldl_nil]

theorem bindAll_append (next : Repl → Plan) (before rest : List (Option String)) :
    bindAll next s (before ++ rest) = bindAll (fun s => bindAll next s rest) s before := by
  induction before generalizing s with
  | nil => rfl
  | cons binding before ih =>
    rw [List.cons_append]
    cases binding with
    | none => rfl
    | some binding =>
      rw [bindAll_cons, bindAll_cons]
      simp only [ih]

theorem choose_ne_finish (o : Options) (s : Repl) (output : Output) :
    choose o s ≠ .finish output (.exit 2) := by
  unfold choose
  split
  · split <;> exact nofun
  · exact nofun
  · exact nofun

/-- Bindings are refused with exit code 2 exactly if one of them is, in the state that the accepted
ones before it lead to. -/
theorem bindAll_exit_two {o : Options} :
    (∃ output, bindAll (choose o) s bindings = .finish output (.exit 2)) ↔
      ∃ before binding rest, bindings = before ++ some binding :: rest ∧
        (∀ next, bindAll next s before = next (bound s before)) ∧
        Refuses (bound s before) binding := by
  constructor
  · rintro ⟨output, stopped⟩
    induction bindings generalizing s with
    | nil => exact absurd stopped (choose_ne_finish o s output)
    | cons binding bindings ih =>
      cases binding with
      | none => cases stopped
      | some binding =>
        by_cases refused : Refuses s binding
        · exact ⟨[], binding, bindings, rfl, fun _ => rfl, refused⟩
        · obtain ⟨m, broken⟩ | accepted := bindAll_of_accepted refused
          · rw [broken] at stopped
            cases stopped
          · rw [accepted] at stopped
            obtain ⟨before, last, rest, rfl, passed, refused⟩ := ih stopped
            refine ⟨some binding :: before, last, rest, rfl, fun next => ?_, ?_⟩
            · rw [accepted, passed, ← bound_cons]
            · rw [bound_cons]
              exact refused
  · rintro ⟨before, binding, rest, rfl, passed, refused⟩
    rw [bindAll_append, passed]
    exact bindAll_of_refuses refused

end CommandLine

namespace Repl

open CommandLine (Options bindAll choose bound Refuses)

/-- The exit codes of a line, of a stream, of a script and of bindings on the command line. -/
theorem exit_code_iff (s : Repl) :
    (∀ line, (s.runLine line).ending = .exit 1 ↔ s.StopsAt (.parse line)) ∧
    (∀ lines, (s.runStream lines).ending = .exit 1 ↔ ∃ before line rest,
      lines = before ++ line :: rest ∧ (s.runStream before).ending = .exit 0 ∧
      (s.after before).StopsAt (.parse line)) ∧
    (∀ path quiet number lines, (s.runScript path quiet number lines).ending = .exit 1 ↔
      ∃ before line rest, lines = before ++ line :: rest ∧
        (s.runScript path quiet number before).ending = .exit 0 ∧
        (before = [] ∨ (s.after before).running = true) ∧
        (s.after before).StopsAt (.parse line)) ∧
    ∀ (o : Options) bindings,
      (∃ output, bindAll (choose o) s bindings = .finish output (.exit 2)) ↔
        ∃ before binding rest, bindings = before ++ some binding :: rest ∧
          (∀ next, bindAll next s before = next (bound s before)) ∧
          Refuses (bound s before) binding := by
  refine ⟨fun _ => runLine_exit_one, fun _ => runStream_exit_one, ?_, ?_⟩
  · intro path quiet number lines
    exact runScript_exit_one
  · intro o bindings
    exact CommandLine.bindAll_exit_two

/-- The equation has a solution, and the line that asks for it ends the run with a failure. -/
theorem solution_reads_as_failure :
    ((start 10).process "ErrorRate = 5").reply = .ok (.said "ErrorRate = 5") ∧
      ¬ (start 10).Fails (.parse "ErrorRate = 5") ∧
      ((start 10).runLine "ErrorRate = 5").ending = .exit 1 := by
  refine ⟨by rfl, ?_, by rfl⟩
  intro failed
  obtain ⟨e, failed⟩ := failed
  cases failed

end Repl

end Equate
