import Equate.Repl

/-!
# Completion

How a word of an unfinished line can be completed: with a directive, with a setting of a
directive, or with the name of a bound variable.
-/

namespace Equate.Repl

def directiveNames : List String :=
  [":help", ":quit", ":exit", ":q", ":let", ":unset", ":vars", ":clear", ":solve", ":trace",
    ":postfix", ":tree", ":precision"]

/-- The completions of the word `text` on the line `line`. -/
def completions (s : Repl) (text line : String) : List String :=
  let line := Text.trimStart line
  let candidates :=
    if Text.startsWith ":trace " line then ["on", "off"]
    else if Text.startsWith ":" text || (Text.startsWith ":" line && !line.toList.contains ' ')
    then directiveNames
    else s.bindings.sorted.map (·.1)
  candidates.filter (Text.startsWith text)

end Equate.Repl
