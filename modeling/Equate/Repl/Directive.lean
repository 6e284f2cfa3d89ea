import Equate.Text.Blank
import Equate.Text.LetterCase

/-!
# Input lines

What a line of input is: nothing, a directive that starts with a colon, an equation, or an
expression. The name of a directive may be written in any case.
-/

namespace Equate.Repl

/-- What can be asked for by name. Arguments that are needed and not there are `none`. -/
inductive Directive where
  | missing
  | help
  | quit
  | bind (arguments : Option (String × String))
  | unset (name : String)
  | list
  | clear
  | solve (arguments : Option (String × String))
  | trace (setting : String)
  | rpn (text : String)
  | tree (text : String)
  | precision (text : String)
  | unknown (word : String)

/-- The first word of the text and the rest, if both are there. -/
def twoFields (text : String) : Option (String × String) :=
  match Text.firstWord? text with
  | some (first, some rest) => some (first, rest)
  | _ => none

def Directive.parse (text : String) : Directive :=
  match Text.firstWord? text with
  | none => .missing
  | some (word, rest) =>
    let word := Text.toLower word
    let argument := Text.trim (rest.getD "")
    match word with
    | "help" => .help
    | "quit" | "exit" | "q" => .quit
    | "let" => .bind (twoFields argument)
    | "unset" => .unset argument
    | "vars" => .list
    | "clear" => .clear
    | "solve" => .solve (twoFields argument)
    | "trace" => .trace (Text.toLower argument)
    | "postfix" => .rpn argument
    | "tree" => .tree argument
    | "precision" => .precision argument
    | _ => .unknown word

inductive Line where
  | blank
  | directive (d : Directive)
  | equation (text : String)
  | expression (text : String)

/-- What a line is. A line that starts with `#` is a comment. -/
def Line.parse (line : String) : Line :=
  let line := Text.trim line
  match line.toList with
  | [] | '#' :: _ => .blank
  | ':' :: cs => .directive (Directive.parse (String.ofList cs))
  | cs => if cs.contains '=' then .equation line else .expression line

end Equate.Repl
