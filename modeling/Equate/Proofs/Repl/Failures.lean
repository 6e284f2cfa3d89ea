import Equate.Proofs.Expr.Value
import Equate.Proofs.Repl.Answers

/-!
# Failed lines

`Fails` tells which lines fail, without a look at what is printed, and `leading` with which name the
answers of the others begin. `stopsAt_iff`: an answer reads as a failure exactly if the line fails
or this name reads as one.
-/

namespace Equate.Repl

/-! ### Which lines fail -/

def Unread (text : String) : Prop :=
  ∃ e, (Formula.parse text : Except ExprError (Formula Float)) = .error e

/-- The variables that an equation may be solved for: the given one, or else those without a
value. -/
def asked (s : Repl) (eq : Equation Float) : Option String → List String
  | some x => [x]
  | none => eq.unknowns s.bindings.env

/-- Whether the equation of a text is not solved: the text is refused, there is not exactly one
variable to solve for, or it cannot be solved for that one. -/
def Unsolved (s : Repl) (text : String) (target : Option String) : Prop :=
  match (Equation.parse text : Except ExprError (Equation Float)) with
  | .error _ => True
  | .ok eq =>
    match s.asked eq target with
    | [x] => ∃ e, (eq.solving s.bindings.env x).outcome = .error (.expression e)
    | _ => True

def Fails (s : Repl) : Line → Prop
  | .expression text => Unread text
  | .equation text => s.Unsolved text none
  | .directive .missing | .directive (.unknown _) => True
  | .directive (.bind (some (name, text))) =>
    isName name = false ∨ ∃ e, s.readValue text = .error (.expression e)
  | .directive (.unset name) => name ≠ "" ∧ s.bindings.get? name = none
  | .directive (.solve (some (target, text))) => s.Unsolved text (some target)
  | .directive (.rpn text) | .directive (.tree text) => text ≠ "" ∧ Unread text
  | .directive (.precision text) => text ≠ "" ∧ ∃ m, Precision.parse text = .error m
  | _ => False

/-! ### How the other lines are answered -/

def solvedFor? (s : Repl) (text : String) (target : Option String) : Option String :=
  match (Equation.parse text : Except ExprError (Equation Float)) with
  | .error _ => none
  | .ok eq =>
    match s.asked eq target with
    | [x] => some x
    | _ => none

/-- The variable with whose name an expression is answered, if it has no value. -/
def simplifiedName? (s : Repl) (f : Formula Float) : Option String :=
  match f.expr.eval s.bindings.env with
  | .ok _ => none
  | .error _ => (f.expr.simplify s.bindings.env).firstName?

/-- The variable with whose name the answer to a line begins, if it begins with a name. -/
def leading (s : Repl) : Line → Option String
  | .expression text => (Formula.parse text).toOption.bind s.simplifiedName?
  | .equation text => s.solvedFor? text none
  | .directive (.bind (some (name, _))) => some name
  | .directive .list => s.bindings.sorted.head?.map (·.1)
  | .directive (.solve (some (target, text))) => s.solvedFor? text (some target)
  | .directive (.rpn text) =>
    (Formula.parse text).toOption.bind fun (f : Formula Float) => f.source.head?.bind Token.name?
  | .directive (.tree text) =>
    (Formula.parse text).toOption.bind fun (f : Formula Float) => f.expr.token.name?
  | _ => none

/-- Whether a reply is a failure where it should be one, and else begins with the given name as far
as failures are told from their first letters. -/
def Judged (fails : Prop) (name : Option String) : Except Misuse Reply → Prop
  | .error _ => ¬ fails
  | .ok (.failed _) => fails
  | .ok reply => ¬ fails ∧ looksFailed reply.printed = name.any looksFailed

theorem Judged.looksFailed_iff {fails : Prop} {name : Option String} {reply : Reply}
    (judged : Judged fails name (.ok reply)) :
    looksFailed reply.printed = true ↔ fails ∨ ∃ x, name = some x ∧ looksFailed x = true := by
  have named : name.any looksFailed = true ↔ ∃ x, name = some x ∧ looksFailed x = true := by
    cases name <;> simp
  cases reply with
  | silent => rw [judged.2, named, or_iff_right judged.1]
  | said text => rw [judged.2, named, or_iff_right judged.1]
  | failed fault => exact iff_of_true (looksFailed_fault fault) (Or.inl judged)

theorem judged_plain {fails : Prop} {text : String} (fine : ¬ fails)
    (plain : looksFailed text = false) : Judged fails none (.ok (.said text)) := ⟨fine, plain⟩

theorem judged_map {fails : Prop} {name : Option String} {shown : Except Misuse String}
    {f : String → String} (fine : ¬ fails)
    (begins : ∀ text, shown = .ok text → looksFailed (f text) = name.any looksFailed) :
    Judged fails name (shown.map fun text => .said (f text)) := by
  cases shown with
  | error m => exact fine
  | ok text => exact ⟨fine, begins text rfl⟩

theorem bind_eq_ok {β γ : Type} {x : Except Misuse β} {f : β → Except Misuse γ} {c : γ}
    (done : (x >>= f) = .ok c) : ∃ b, x = .ok b ∧ f b = .ok c := by
  cases x with
  | error m => cases done
  | ok b => exact ⟨b, rfl, done⟩

theorem judged_of_ok {fails : Prop} {name : Option String} {r : Except Misuse Reply}
    (fine : ¬ fails) (said : ∀ reply, r = .ok reply →
      ∃ text, .said text = reply ∧ looksFailed text = name.any looksFailed) :
    Judged fails name r := by
  cases r with
  | error m => exact fine
  | ok reply =>
    obtain ⟨text, rfl, begins⟩ := said reply rfl
    exact ⟨fine, begins⟩

section Line

variable (s : Repl)

theorem eval_error {f : Formula Float} {e : Failure}
    (failed : f.expr.eval s.bindings.env = .error e) : ∃ x, e = .expression (.unresolved x) := by
  have value := f.expr.eval_of_unbound? s.bindings.env
  rw [failed] at value
  cases first : f.expr.unbound? s.bindings.env with
  | none =>
    rw [first] at value
    obtain ⟨v, impossible⟩ := value
    cases impossible
  | some x =>
    rw [first] at value
    exact ⟨x, Except.error.inj value⟩

theorem judged_bind (name text : String) :
    Judged (isName name = false ∨ ∃ e, s.readValue text = .error (.expression e)) (some name)
      (s.bind name text).reply := by
  unfold bind
  split
  · rename_i named
    have fine (m : ∀ e, s.readValue text ≠ .error (.expression e)) :
        ¬ (isName name = false ∨ ∃ e, s.readValue text = .error (.expression e)) := by
      rintro (unnamed | ⟨e, refused⟩)
      · rw [named] at unnamed
        cases unnamed
      · exact m e refused
    split
    · rename_i f refused
      cases f with
      | expression e => exact Or.inr ⟨e, refused⟩
      | misuse m => exact fine (by simp [refused])
    · rename_i v value
      exact judged_map (fine (by simp [value])) fun shown _ => looksFailed_equals name shown
  · rename_i unnamed
    exact Or.inl (Bool.not_eq_true _ ▸ unnamed)

theorem judged_list : Judged False (s.bindings.sorted.head?.map (·.1)) s.list := by
  unfold list
  split
  · rename_i none
    rw [List.isEmpty_iff] at none
    have sorted : s.bindings.sorted = [] := by rw [none, Bindings.sorted, List.mergeSort_nil]
    rw [sorted]
    exact judged_plain not_false (by decide)
  · cases s.bindings.sorted with
    | nil => exact judged_plain not_false (by decide)
    | cons first rest =>
      obtain ⟨x, v⟩ := first
      rw [List.mapM_cons]
      refine judged_of_ok not_false fun reply said => ?_
      obtain ⟨lines, listed, said⟩ := bind_eq_ok said
      obtain ⟨line, first, listed⟩ := bind_eq_ok listed
      obtain ⟨shown, -, first⟩ := bind_eq_ok first
      obtain ⟨more, -, listed⟩ := bind_eq_ok listed
      obtain rfl := Except.ok.inj first
      obtain rfl := Except.ok.inj listed
      refine ⟨_, Except.ok.inj said, ?_⟩
      cases more with
      | nil => exact looksFailed_equals x shown
      | cons next more =>
        rw [String.intercalate_cons_cons, String.append_assoc, String.append_assoc]
        exact looksFailed_equals x _

theorem targetOf_eq (eq : Equation Float) (target : Option String) :
    s.targetOf eq target = match s.asked eq target with
      | [x] => .ok x
      | names => .error (.notOneUnknown names) := by
  cases target <;> rfl

theorem judged_showSolution {fails : Prop} (x : String) (eq : Equation Float) (v : Float)
    (run : Solving Float) (fine : ¬ fails) :
    Judged fails (some x) (s.showSolution x eq v run) := by
  unfold showSolution
  refine judged_of_ok fine fun reply said => ?_
  obtain ⟨shown, -, said⟩ := bind_eq_ok said
  split at said
  · refine ⟨_, Except.ok.inj said, ?_⟩
    rw [String.append_assoc, String.append_assoc]
    exact looksFailed_equals x _
  · exact ⟨_, Except.ok.inj said, looksFailed_equals x shown⟩

theorem judged_solve (text : String) (target : Option String) :
    Judged (s.Unsolved text target) (s.solvedFor? text target) (s.solve text target).reply := by
  unfold solve Unsolved solvedFor?
  cases (Equation.parse text : Except ExprError (Equation Float)) with
  | error e => exact trivial
  | ok eq =>
    dsimp only
    rw [targetOf_eq]
    rcases s.asked eq target with _ | ⟨x, _ | ⟨y, more⟩⟩
    · exact trivial
    · dsimp only
      cases (eq.solving s.bindings.env x).outcome with
      | error e =>
        cases e with
        | expression e => exact ⟨e, rfl⟩
        | misuse m => exact fun failed => by simp at failed
      | ok v => exact s.judged_showSolution x eq v _ (by simp)
    · exact trivial

theorem judged_evaluate (text : String) :
    Judged (Unread text) ((Formula.parse text).toOption.bind s.simplifiedName?)
      (s.evaluate text) := by
  unfold evaluate Unread
  cases (Formula.parse text : Except ExprError (Formula Float)) with
  | error e => exact ⟨e, rfl⟩
  | ok f =>
    have fine : ¬ ∃ e, (Except.ok f : Except ExprError (Formula Float)) = .error e := by simp
    change Judged _ (s.simplifiedName? f) _
    unfold simplifiedName?
    dsimp only
    cases value : f.expr.eval s.bindings.env with
    | ok v => exact judged_map fine fun shown written => looksFailed_display written
    | error e =>
      obtain ⟨x, rfl⟩ := s.eval_error value
      refine judged_map fine fun shown written => ?_
      obtain ⟨lit, harmless, rfl⟩ := infixText_of_precision written
      exact looksFailed_infixText harmless _

theorem judged_reading (text usage : String) (plain : looksFailed usage = false)
    {f : Formula Float → String} {name : Formula Float → Option String}
    (begins : ∀ formula, looksFailed (f formula) = (name formula).any looksFailed) :
    Judged (text ≠ "" ∧ Unread text) ((Formula.parse text).toOption.bind name)
      (if text.isEmpty then Response.said s usage else s.reading text f).reply := by
  split
  · rename_i empty
    obtain rfl : text = "" := String.isEmpty_iff.mp empty
    exact judged_plain (fun failed => failed.1 rfl) plain
  · rename_i some_text
    rw [String.isEmpty_iff] at some_text
    unfold reading Unread
    cases (Formula.parse text : Except ExprError (Formula Float)) with
    | error e => exact ⟨some_text, e, rfl⟩
    | ok formula => exact ⟨fun failed => by simp at failed, begins formula⟩

theorem judged_unset (name : String) :
    Judged (name ≠ "" ∧ s.bindings.get? name = none) none (s.obey (.unset name)).reply := by
  unfold obey
  dsimp only
  split
  · rename_i empty
    exact judged_plain (fun failed => failed.1 (String.isEmpty_iff.mp empty)) (by decide)
  · rename_i some_name
    rw [String.isEmpty_iff] at some_name
    split
    · rename_i unbound
      exact ⟨some_name, unbound⟩
    · rename_i v bound
      refine judged_plain (fun failed => ?_) ?_
      · rw [bound] at failed
        cases failed.2
      · have text : ("Unset " ++ name).toList =
            'U' :: 'n' :: 's' :: ("et ".toList ++ name.toList) := by
          simp
        rw [looksFailed_eq, text]
        rfl

theorem judged_precision (text : String) :
    Judged (text ≠ "" ∧ ∃ m, Precision.parse text = .error m) none
      (s.obey (.precision text)).reply := by
  unfold obey
  dsimp only
  split
  · rename_i empty
    exact judged_plain (fun failed => failed.1 (String.isEmpty_iff.mp empty)) (by decide)
  · rename_i some_text
    rw [String.isEmpty_iff] at some_text
    cases Precision.parse text with
    | error m => exact ⟨some_text, m, rfl⟩
    | ok p =>
      refine judged_plain (fun failed => by simp at failed) ?_
      have shown : ("Precision set to: " ++ Text.ofInt p).toList =
          'P' :: ("recision set to: ".toList ++ (Text.ofInt p).toList) := by simp
      rw [looksFailed_eq, shown]
      exact readsFailed_cons_of_ne (by decide) (by decide) _

set_option maxRecDepth 10000 in
theorem looksFailed_helpText : looksFailed helpText = false := by
  obtain ⟨rest, text⟩ : ∃ rest, helpText.toList = 'S' :: rest := ⟨_, String.toList_ofList⟩
  rw [looksFailed_eq, text]
  exact readsFailed_cons_of_ne (by decide) (by decide) rest

/-- Every reply is a failure if the line fails, and else begins with a name only where there is one
to begin with. -/
theorem judged_answer (line : Line) :
    Judged (s.Fails line) (s.leading line) (s.answer line).reply := by
  cases line with
  | blank => exact ⟨not_false, rfl⟩
  | equation text => exact s.judged_solve text none
  | expression text => exact s.judged_evaluate text
  | directive d =>
    cases d with
    | missing => exact trivial
    | unknown word => exact trivial
    | help => exact judged_plain not_false looksFailed_helpText
    | quit => exact ⟨not_false, rfl⟩
    | clear => exact judged_plain not_false (by decide)
    | list => exact s.judged_list
    | trace setting =>
      have plain : ∀ on : Bool,
          looksFailed (if on then "Tracing enabled" else "Tracing disabled") = false := by decide
      exact judged_plain not_false (plain _)
    | bind arguments =>
      cases arguments with
      | none => exact judged_plain not_false (by decide)
      | some pair => exact s.judged_bind pair.1 pair.2
    | solve arguments =>
      cases arguments with
      | none => exact judged_plain not_false (by decide)
      | some pair => exact s.judged_solve pair.2 (some pair.1)
    | unset name => exact s.judged_unset name
    | rpn text =>
      exact s.judged_reading text _ (by decide) fun f => looksFailed_postfixText harmless_short _
    | tree text =>
      exact s.judged_reading text _ (by decide) fun f => looksFailed_prefixText harmless_short _
    | precision text => exact s.judged_precision text

end Line

/-- Whether a line is answered with what reads as a failure: the line fails, or its answer begins
with a name that reads so. -/
def StopsAt (s : Repl) (line : Line) : Prop :=
  s.Fails line ∨ (∃ reply, (s.answer line).reply = .ok reply) ∧
    ∃ x, s.leading line = some x ∧ looksFailed x = true

theorem stopsAt_iff (s : Repl) (line : Line) :
    s.StopsAt line ↔ ∃ reply, (s.answer line).reply = .ok reply ∧ looksFailed reply.printed := by
  have judged := s.judged_answer line
  unfold StopsAt
  cases answered : (s.answer line).reply with
  | error m =>
    rw [answered] at judged
    have fine : ¬ s.Fails line := judged
    simp [fine]
  | ok reply =>
    rw [answered] at judged
    simp [judged.looksFailed_iff]

end Equate.Repl
