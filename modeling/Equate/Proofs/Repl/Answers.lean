import Equate.Proofs.Formula.Layout
import Equate.Proofs.Number.PlainText
import Equate.Repl.Run

/-!
# How answers begin

Whether a line failed is told from the first letters of its answer. Texts of failures do begin with
the letters that are looked for, and texts of numbers never do, but texts of expressions may begin
with the name of a variable: the lemmas on `looksFailed` tell with which.
-/

namespace Equate

open Decimal Text

/-! ### How numbers begin -/

namespace Number

/-- The characters with which the text of a number can begin. -/
def opens (c : Char) : Bool := isAsciiDigit c || ['-', 'i', 'n'].contains c

theorem opens_of_digit {c : Char} (digit : isAsciiDigit c = true) : opens c = true := by
  rw [opens, digit, Bool.true_or]

def AllDigits (cs : List Char) : Prop := cs ≠ [] ∧ ∀ c ∈ cs, isAsciiDigit c = true

theorem AllDigits.head {cs : List Char} (digits : AllDigits cs) :
    ∃ c rest, cs = c :: rest ∧ opens c = true := by
  obtain ⟨c, rest, rfl⟩ := List.exists_cons_of_ne_nil digits.1
  exact ⟨c, rest, rfl, opens_of_digit (digits.2 c List.mem_cons_self)⟩

theorem digits_head (style : Style) {s : Scientific} (digits : AllDigits s.digits) :
    ∃ c rest, style.digits s = c :: rest ∧ opens c = true := by
  unfold Style.digits
  split
  · obtain ⟨nonempty, all⟩ := positional_digits digits.1 digits.2
    generalize s.positional = parts at nonempty all
    obtain ⟨whole, places⟩ := parts
    obtain ⟨c, rest, rfl, opened⟩ :=
      AllDigits.head ⟨nonempty, fun c member => all c (List.mem_append_left _ member)⟩
    split
    · rename_i split
      obtain ⟨rfl, -⟩ := Prod.mk.inj split
      split
      · exact ⟨c, _, rfl, opened⟩
      · exact ⟨c, rest, rfl, opened⟩
    · rename_i split
      obtain ⟨rfl, -⟩ := Prod.mk.inj split
      exact ⟨c, _, rfl, opened⟩
  · obtain ⟨ds, x⟩ := s
    match ds, digits.head with
    | [c], ⟨_, _, rfl, opened⟩ => exact ⟨_, _, rfl, opened⟩
    | c :: d :: more, ⟨_, _, rfl, opened⟩ => exact ⟨_, _, rfl, opened⟩

theorem render_head (style : Style) {choose : Nat → Int → Scientific} {x : Float}
    (digits : ∀ negative m e, Double.ofFloat x = .finite negative m e →
      AllDigits (choose m e).digits) :
    ∃ c rest, (style.render choose x).toList = c :: rest ∧ opens c = true := by
  unfold Style.render
  cases double : Double.ofFloat x with
  | nan => exact ⟨'n', ['a', 'n'], by simp, rfl⟩
  | infinite negative =>
    cases negative
    · exact ⟨'i', ['n', 'f'], String.toList_ofList, rfl⟩
    · exact ⟨'-', ['i', 'n', 'f'], String.toList_ofList, rfl⟩
  | finite negative m e =>
    cases negative
    · simpa [signed] using digits_head style (digits _ m e double)
    · exact ⟨'-', _, String.toList_ofList, rfl⟩

theorem short_head (x : Float) : ∃ c rest, (short x).toList = c :: rest ∧ opens c = true :=
  render_head _ fun _ _ _ double => shortest_digits _ (bits_of_ofFloat double).2.1

theorem rounded_head (n : Nat) (x : Float) :
    ∃ c rest, (rounded n x).toList = c :: rest ∧ opens c = true := by
  refine render_head _ fun _ m e _ => ?_
  unfold significant
  split
  · exact ⟨nofun, List.forall_mem_singleton.mpr rfl⟩
  · exact digits_ofUnits _ _

end Number

namespace Repl

/-! ### Texts that read as failures -/

/-- `looksFailed` on characters. -/
def readsFailed (cs : List Char) : Bool :=
  "Error".toList.isPrefixOf cs || "Unknown".toList.isPrefixOf cs

theorem looksFailed_eq (text : String) : looksFailed text = readsFailed text.toList := rfl

theorem isPrefixOf_append_cons {w : List Char} {c : Char} (other : c ∉ w) (cs rest : List Char) :
    w.isPrefixOf (cs ++ c :: rest) = w.isPrefixOf cs := by
  induction w generalizing cs with
  | nil => rfl
  | cons a w ih =>
    rw [List.mem_cons, not_or] at other
    obtain ⟨ne, other⟩ := other
    cases cs with
    | nil => simp [List.isPrefixOf, Ne.symm ne]
    | cons b cs => rw [List.cons_append, List.isPrefixOf, List.isPrefixOf, ih other]

/-- A text is read up to the first character that belongs to neither word. -/
theorem readsFailed_append_cons {c : Char} (other : c ∉ "ErrorUnknown".toList)
    (cs rest : List Char) : readsFailed (cs ++ c :: rest) = readsFailed cs := by
  have parted : "ErrorUnknown".toList = "Error".toList ++ "Unknown".toList := rfl
  rw [parted, List.mem_append, not_or] at other
  rw [readsFailed, readsFailed, isPrefixOf_append_cons other.1, isPrefixOf_append_cons other.2]

theorem readsFailed_cons_of_ne {c : Char} (first : c ≠ 'E') (second : c ≠ 'U') (rest : List Char) :
    readsFailed (c :: rest) = false := by
  have error : "Error".toList = 'E' :: "rror".toList := rfl
  have unknown : "Unknown".toList = 'U' :: "nknown".toList := rfl
  rw [readsFailed, error, unknown]
  simp [List.isPrefixOf, first.symm, second.symm]

theorem looksFailed_append {a : String} (failed : looksFailed a = true) (b : String) :
    looksFailed (a ++ b) = true := by
  rw [looksFailed_eq, readsFailed, Bool.or_eq_true] at failed ⊢
  rw [String.toList_append]
  simp only [List.isPrefixOf_iff_prefix] at failed ⊢
  exact failed.imp (·.trans (List.prefix_append ..)) (·.trans (List.prefix_append ..))

theorem looksFailed_fault (fault : Fault) : looksFailed fault.text = true := by
  cases fault with
  | expression e => exact looksFailed_append rfl _
  | invalidName name => exact looksFailed_append (looksFailed_append rfl _) _
  | notOneUnknown names =>
    unfold Fault.text
    iterate 4 apply looksFailed_append
    rfl
  | precision m => exact looksFailed_append rfl _
  | missingDirective => rfl
  | unknownDirective word => exact looksFailed_append (looksFailed_append rfl _) _
  | unknownVariable name => exact looksFailed_append rfl _

/-- A name and its value read as the name alone. -/
theorem looksFailed_equals (x rest : String) :
    looksFailed (x ++ " = " ++ rest) = looksFailed x := by
  have text : (x ++ " = " ++ rest).toList = x.toList ++ ' ' :: ('=' :: ' ' :: rest.toList) := by
    simp
  rw [looksFailed_eq, text, readsFailed_append_cons (by decide), looksFailed_eq]

/-- A way to write numbers with which no text of a number reads as a failure. -/
def Harmless (lit : Float → String) : Prop := ∀ v, looksFailed (lit v) = false

theorem looksFailed_of_head {text : String}
    (head : ∃ c rest, text.toList = c :: rest ∧ Number.opens c = true) :
    looksFailed text = false := by
  obtain ⟨c, rest, split, opened⟩ := head
  rw [looksFailed_eq, split]
  refine readsFailed_cons_of_ne ?_ ?_ rest <;>
  · rintro rfl
    exact absurd opened (by decide)

theorem harmless_short : Harmless Number.short := fun v => looksFailed_of_head (Number.short_head v)

theorem harmless_rounded (n : Nat) : Harmless (Number.rounded n) :=
  fun v => looksFailed_of_head (Number.rounded_head n v)

theorem looksFailed_display {s : Repl} {v : Float} {shown : String}
    (written : s.display v = .ok shown) : looksFailed shown = false := by
  rw [display, Number.format] at written
  cases width : Number.checkPrecision s.precision with
  | error m => rw [width] at written; cases written
  | ok n =>
    rw [width] at written
    obtain rfl := Except.ok.inj written
    exact harmless_rounded n v

/-! ### Texts of expressions -/

end Repl

/-- The variable with whose name the infix text begins, if it begins with a name. -/
def Expr.firstName? {α : Type} : Expr α → Option String
  | lit _ => none
  | var x => some x
  | node _ op l _ => if l.needsParens op true then none else l.firstName?

def Token.name? {α : Type} : Token α → Option String
  | name x => some x
  | _ => none

namespace Repl

theorem readsFailed_bracketed (cs : List Char) : readsFailed (bracketed cs) = false :=
  readsFailed_cons_of_ne (by decide) (by decide) _

theorem looksFailed_infixText {lit : Float → String} (harmless : Harmless lit) (e : Expr Float) :
    looksFailed (e.infixText lit) = e.firstName?.any looksFailed := by
  rw [looksFailed_eq, e.toList_infixText]
  induction e with
  | lit v => exact harmless v
  | var x => rfl
  | node o op l r ihl ihr =>
    have text : (Expr.node o op l r).infixChars lit =
        l.beside op true bracketed (l.infixChars lit) ++
          ' ' :: (op.symbol :: ' ' :: r.beside op false bracketed (r.infixChars lit)) := by
      simp [Expr.infixChars, spaced]
    rw [text, readsFailed_append_cons (by decide), Expr.beside, Expr.firstName?]
    split
    · exact readsFailed_bracketed _
    · exact ihl

theorem infixText_of_precision {p : Int} {e : Expr Float} {text : String}
    (written : e.toTree.infixText (some p) = .ok text) :
    ∃ lit, Harmless lit ∧ text = e.infixText lit := by
  rw [Tree.infixText, e.toRpn_toTree, literalWriter] at written
  split at written
  · cases width : Number.checkPrecision p with
    | error m => rw [width] at written; cases written
    | ok n =>
      rw [width] at written
      exact ⟨Number.rounded n, harmless_rounded n, (Except.ok.inj written).symm⟩
  · exact ⟨Number.short, harmless_short, (Except.ok.inj written).symm⟩

theorem looksFailed_tokenText {lit : Float → String} (harmless : Harmless lit) (t : Token Float) :
    looksFailed (t.text lit) = t.name?.any looksFailed := by
  cases t with
  | literal v => exact harmless v
  | name x => rfl
  | operator o op =>
    have text : op.text.toList = [op.symbol] := by cases op <;> rfl
    rw [Token.text, looksFailed_eq, text]
    exact readsFailed_cons_of_ne (by cases op <;> decide) (by cases op <;> decide) []
  | openParen => exact (by decide : looksFailed "(" = false)
  | closeParen => exact (by decide : looksFailed ")" = false)

theorem looksFailed_postfixText {lit : Float → String} (harmless : Harmless lit)
    (ts : List (Token Float)) :
    looksFailed (Rpn.postfixText lit ts) = (ts.head?.bind Token.name?).any looksFailed := by
  match ts with
  | [] => rfl
  | [t] => exact looksFailed_tokenText harmless t
  | t :: u :: ts =>
    have text : (Rpn.postfixText lit (t :: u :: ts)).toList =
        (t.text lit).toList ++ ' ' :: (Rpn.postfixText lit (u :: ts)).toList := by
      simp [Rpn.postfixText, String.intercalate_cons_cons]
    rw [looksFailed_eq, text, readsFailed_append_cons (by decide), ← looksFailed_eq]
    exact looksFailed_tokenText harmless t

theorem looksFailed_prefixText {lit : Float → String} (harmless : Harmless lit) (e : Expr Float) :
    looksFailed (e.prefixText lit) = e.token.name?.any looksFailed := by
  rw [Expr.prefixText, Rpn.prefixText, Expr.reduceM_toRpn]
  cases e with
  | lit v => exact harmless v
  | var x => rfl
  | node o op l r =>
    have text : ∀ s : String, ("(" ++ s ++ ")").toList = bracketed s.toList := by
      simp [bracketed]
    exact (congrArg readsFailed (text _)).trans (readsFailed_bracketed _)

end Repl

end Equate
