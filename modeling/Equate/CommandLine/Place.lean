import Equate.Error

/-!
# Places of scripts

The path under which a script is named, and why a script cannot be read.
-/

namespace Equate.CommandLine

/-- The names along a path, without empty ones and without those that stay where they are. -/
def pathNames (path : String) : List (List Char) :=
  (path.toList.splitOn '/').filter fun name => !name.isEmpty && name != ['.']

/-- The slashes that a path begins with: none, one, or exactly two. -/
def pathRoot (path : String) : String :=
  match path.toList with
  | '/' :: '/' :: '/' :: _ => "/"
  | '/' :: '/' :: _ => "//"
  | '/' :: _ => "/"
  | _ => ""

/-- The path without repeated slashes, slashes at the end, and names that stay in place. A path
without names is the place itself. -/
def tidyPath (path : String) : String :=
  let names := pathNames path
  let root := pathRoot path
  if names.isEmpty && root.isEmpty then "."
  else root ++ "/".intercalate (names.map String.ofList)

inductive ReadFailure where
  | missing
  | denied
  | notDirectory
  | directory
  | tooLong

def ReadFailure.message (path : String) (f : ReadFailure) : String :=
  let cause := match f with
    | missing => "[Errno 2] No such file or directory: "
    | denied => "[Errno 13] Permission denied: "
    | notDirectory => "[Errno 20] Not a directory: "
    | directory => "[Errno 21] Is a directory: "
    | tooLong => "[Errno 36] File name too long: "
  cause ++ Text.quoted path

/-- Files by their paths below the place where the program runs. Nothing else is there. -/
abbrev Files := List (String × String)

def longestName : Nat := 255

def longestPath : Nat := 4095

def leadsUp (name : List Char) : Bool := name == ['.', '.']

def tooLongName (name : List Char) : Bool := longestName < (String.ofList name).utf8ByteSize

/-- Follows the names of a path outside of the place, where the directories above it, up to the
root, are all there is. The root is above itself. -/
def followOutside : List (List Char) → ReadFailure
  | [] => .directory
  | name :: names =>
    if leadsUp name then followOutside names
    else if tooLongName name then .tooLong
    else .missing

/-- Follows the names of a path from a directory, which is given by its own names. -/
def Files.follow (files : Files) (directory : List (List Char)) :
    List (List Char) → Except ReadFailure String
  | [] => .error .directory
  | name :: names =>
    if leadsUp name then
      if directory.isEmpty then .error (followOutside names)
      else files.follow directory.dropLast names
    else if tooLongName name then .error .tooLong
    else
      let here := directory ++ [name]
      let path := "/".intercalate (here.map String.ofList)
      match files.lookup path with
      | some text => if names.isEmpty then .ok text else .error .notDirectory
      | none =>
        if files.any (fun (p, _) => (path ++ "/").toList.isPrefixOf p.toList) then
          files.follow here names
        else .error .missing

/-- The text of a file. An absolute path leads outside. -/
def Files.read (files : Files) (path : String) : Except ReadFailure String :=
  if longestPath < path.utf8ByteSize then .error .tooLong
  else if (pathRoot path).isEmpty then files.follow [] (pathNames path)
  else .error (followOutside (pathNames path))

end Equate.CommandLine
