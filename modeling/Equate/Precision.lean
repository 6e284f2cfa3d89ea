import Equate.Number.Reading

/-!
# Precision

The number of significant digits with which results are shown, as a setting: it is at least one.
-/

namespace Equate.Precision

def least : Int := 1

def default : Int := 10

/-- A precision with which no number can be shown. -/
def void : Int := -1

inductive Given where
  | text (s : String)
  | integer (n : Int)
  | number (x : Float)
  | nothing

/-- The integer that was given. A number loses its fraction; an infinity has no integer. -/
def Given.toInt? : Given → Except Misuse (Option Int)
  | text s => .ok (Number.readInt? s)
  | integer n => .ok (some n)
  | number x => if x.isInf then .error .precisionInfinite else .ok (Number.truncate? x)
  | nothing => .ok none

/-- What was given, as messages show it. -/
def Given.inspect : Given → String
  | text s => Text.quoted s
  | integer n => Text.ofInt n
  | number x => Number.exact x
  | nothing => "None"

def ofGiven (given : Given) : Except Misuse Int := do
  match ← given.toInt? with
  | none => throw (.precisionNotInteger given.inspect)
  | some n => if n < least then throw (.precisionTooSmall least n) else return n

def parse (s : String) : Except Misuse Int := ofGiven (.text s)

end Equate.Precision
