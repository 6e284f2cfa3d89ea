/-!
# Lines

Two readings of a text as lines. Every text first has its line ends unified: a carriage return,
alone or before a line feed, becomes a line feed. A stream is then cut at line feeds only, a
script at every character that ends a line.
-/

namespace Equate.Text

/-- `\r\n` and `\r` become `\n`. -/
def unifyLineEnds : List Char → List Char
  | '\r' :: '\n' :: cs => '\n' :: unifyLineEnds cs
  | '\r' :: cs => '\n' :: unifyLineEnds cs
  | c :: cs => c :: unifyLineEnds cs
  | [] => []

def endsLine (c : Char) : Bool :=
  let n := c.toNat
  (0x0a ≤ n && n ≤ 0x0d) || (0x1c ≤ n && n ≤ 0x1e) || n == 0x85 || n == 0x2028 || n == 0x2029

/-- The pieces that end at a character satisfying `p`, without that character. The text after
the last such character is a piece of its own unless it is empty. -/
def cutAfter (p : Char → Bool) (cs : List Char) : List (List Char) :=
  cs.foldr (fun c pieces =>
    if p c then [] :: pieces
    else match pieces with
      | [] => [[c]]
      | piece :: more => (c :: piece) :: more) []

end Equate.Text
