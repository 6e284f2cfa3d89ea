/-!
# Flags

The flags of the command line: their spellings, and which of them take a value.
-/

namespace Equate.CommandLine

inductive Flag where
  | help | expr | bind | trace | precision | quiet | verbose | version
  deriving DecidableEq

namespace Flag

def all : List Flag := [help, expr, bind, trace, precision, quiet, verbose, version]

def spellings : Flag → List String
  | help => ["-h", "--help"]
  | expr => ["-e", "--expr"]
  | bind => ["-b", "--bind"]
  | trace => ["-t", "--trace"]
  | precision => ["-p", "--precision"]
  | quiet => ["-q", "--quiet"]
  | verbose => ["-v", "--verbose"]
  | version => ["--version"]

def takesValue : Flag → Bool
  | expr | bind | precision => true
  | _ => false

def name (f : Flag) : String := "/".intercalate f.spellings

def table : List (String × Flag) := all.flatMap fun f => f.spellings.map (·, f)

def ofSpelling? (s : String) : Option Flag := table.lookup s

end Flag

end Equate.CommandLine
