/-!
# Blank space

Which characters separate words, and the cuts of a text at blanks: trimming both ends, and
splitting off the first word.
-/

namespace Equate.Text

/-- The characters that separate words: tab to carriage return, the four separators U+001C to
U+001F, the space, and the spaces and line ends beyond ASCII. -/
def isBlank (c : Char) : Bool :=
  let n := c.toNat
  (0x09 ≤ n && n ≤ 0x0d) || (0x1c ≤ n && n ≤ 0x20) || n == 0x85 || n == 0xa0 || n == 0x1680 ||
    (0x2000 ≤ n && n ≤ 0x200a) || n == 0x2028 || n == 0x2029 || n == 0x202f || n == 0x205f ||
    n == 0x3000

/-- The blanks that may stand around a number: all but the separators U+001C to U+001F. -/
def isNumberBlank (c : Char) : Bool :=
  isBlank c && !(0x1c ≤ c.toNat && c.toNat ≤ 0x1f)

/-- Drops from both ends the characters that satisfy `p`. -/
def trimBoth (p : Char → Bool) (cs : List Char) : List Char :=
  ((cs.dropWhile p).reverse.dropWhile p).reverse

def trim (s : String) : String :=
  String.ofList (trimBoth isBlank s.toList)

def trimStart (s : String) : String :=
  String.ofList (s.toList.dropWhile isBlank)

/-- The first word, and what follows the blanks after it. The rest keeps its own last blanks. A
text of blanks has no first word; a single word is followed by nothing. -/
def firstWord? (s : String) : Option (String × Option String) :=
  match s.toList.dropWhile isBlank with
  | [] => none
  | c :: cs =>
    let word := (c :: cs).takeWhile (!isBlank ·)
    let rest := ((c :: cs).dropWhile (!isBlank ·)).dropWhile isBlank
    some (String.ofList word, if rest.isEmpty then none else some (String.ofList rest))

def startsWith (start s : String) : Bool :=
  start.toList.isPrefixOf s.toList

end Equate.Text
