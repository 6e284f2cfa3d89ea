import Equate.CommandLine.Words
import Equate.Precision

/-!
# Options

What a command line asks for. Words are taken from left to right; the last of repeated flags
wins, but bindings add up. The first operand is the script, and words that are left over are
refused at the end. A separator attached to a flag leaves the flag without a value.
-/

namespace Equate.CommandLine

structure Options where
  script : Option String
  expr : Option String
  bindings : List (Option String)
  trace : Bool
  precision : Option Int
  quiet : Bool
  verbose : Bool

def Options.empty : Options := ⟨none, none, [], false, none, false, false⟩

/-- Why there are no options: help or the version is asked for, or the command line is refused. -/
inductive Stop where
  | help
  | version
  | refused (e : UsageError)

/-- Flags that share one word, with the values of those that have one here. The last flag may
still need the next word. -/
structure Cluster where
  flags : List (Flag × Option String)
  needy : Option Flag

/-- A flag with nothing attached: a flag that takes a value waits for the next word. -/
def Cluster.alone (f : Flag) : Cluster :=
  if f.takesValue then ⟨[], some f⟩ else ⟨[(f, none)], none⟩

/-- A flag with the text attached to it, which is its value unless it is a separator. -/
def Cluster.valued (f : Flag) (attached : List Char) : Cluster :=
  ⟨[(f, if attached == ['-', '-'] then none else some (String.ofList attached))], none⟩

def Cluster.withFirst (f : Flag) (c : Cluster) : Cluster := { c with flags := (f, none) :: c.flags }

/-- The flags of one word. The text attached to a short flag without value goes on as further
short flags, up to one that takes the rest as its value. -/
def cluster (f : Flag) (long : Bool) : List Char → Except UsageError Cluster
  | [] => if f.takesValue then .ok (.valued f []) else .error (.ignoredValue f "")
  | c :: rest =>
    if f.takesValue then .ok (.valued f (c :: rest))
    else match long, Flag.ofSpelling? (String.ofList ['-', c]) with
      | false, some next =>
        if rest.isEmpty then .ok ((Cluster.alone next).withFirst f)
        else (cluster next false rest).map (Cluster.withFirst f)
      | _, _ => .error (.ignoredValue f (String.ofList (c :: rest)))

/-- The options after a flag with its value. An expression without value is as good as none, but
a precision without value shows no number. -/
def Options.take (o : Options) (f : Flag) (value : Option String) : Except Stop Options :=
  match f with
  | .help => .error .help
  | .version => .error .version
  | .expr => .ok { o with expr := value }
  | .bind => .ok { o with bindings := o.bindings ++ [value] }
  | .trace => .ok { o with trace := true }
  | .quiet => .ok { o with quiet := true }
  | .verbose => .ok { o with verbose := true }
  | .precision =>
    match value.map Precision.parse with
    | none => .ok { o with precision := some Precision.void }
    | some (.ok p) => .ok { o with precision := some p }
    | some (.error m) => .error (.refused (.precision m))

def Options.takeAll (o : Options) (flags : List (Flag × Option String)) : Except Stop Options :=
  flags.foldlM (fun o (f, value) => o.take f value) o

def flagsOf (f : Flag) (long : Bool) : Option (List Char) → Except UsageError Cluster
  | some attached => cluster f long attached
  | none => .ok (.alone f)

/-- Where the reading of words stands: the options so far, flags that wait for the value of the
last of them, whether there was an operand, whether it was the last word, and what is left
over. -/
structure Progress where
  options : Options
  waiting : Option (List (Flag × Option String) × Flag)
  operandSeen : Bool
  operandLast : Bool
  leftover : List String

/-- One more word that no flag waits for. A separator is dropped in front of the script and
directly after it. -/
def Progress.takeFree (p : Progress) : Word → Except Stop Progress
  | .unknown s => .ok { p with operandLast := false, leftover := p.leftover ++ [s] }
  | .operand s =>
    if p.operandSeen then .ok { p with operandLast := false, leftover := p.leftover ++ [s] }
    else
      let options := { p.options with script := some s }
      .ok { p with options, operandSeen := true, operandLast := true }
  | .separator s =>
    if p.operandSeen && !p.operandLast then .ok { p with leftover := p.leftover ++ [s] }
    else .ok { p with operandLast := false }
  | .flag f long attached => do
    let c ← (flagsOf f long attached).mapError .refused
    let p := { p with operandLast := false }
    match c.needy with
    | some needy => return { p with waiting := some (c.flags, needy) }
    | none => return { p with options := ← p.options.takeAll c.flags }

/-- One more word. Flags take effect when the last of them has its value. -/
def Progress.take (p : Progress) (w : Word) : Except Stop Progress :=
  match p.waiting, w with
  | none, _ => p.takeFree w
  | some (flags, needy), .operand value => do
    return { p with
      waiting := none, options := ← p.options.takeAll (flags ++ [(needy, some value)]) }
  | some (_, needy), _ => .error (.refused (.expectedValue needy))

def Options.parse (arguments : List String) : Except Stop Options := do
  let ws ← (words arguments).mapError .refused
  let p ← ws.foldlM Progress.take ⟨.empty, none, false, false, []⟩
  if let some (_, needy) := p.waiting then throw (.refused (.expectedValue needy))
  if p.leftover.isEmpty then return p.options
  else throw (.refused (.unrecognized p.leftover))

end Equate.CommandLine
