import ApiTools.Encoding.Utf8
import ApiTools.Json.Fields

/-!
# Files by their paths

The files of a working directory, by their paths from there. Empty names and single dots in a
path say nothing; two dots lead back from a directory, which has to be there.
-/

namespace ApiTools

/-- The files of a directory and of those below it. -/
abbrev Files := Fields Bytes

/-- Why no file can have a path. -/
inductive PathError where
  /-- It holds a zero. -/
  | zero
  /-- It cannot be written in UTF-8. -/
  | unencodable (path : Text)
deriving DecidableEq

/-- The report of a path that no file can have. -/
def PathError.message : PathError → Text
  | .zero => "embedded null byte"
  | .unencodable path => Encoding.surrogateReport path

namespace Files

/-- The name that stands for the directory around. -/
def parent : Text := ".."

/-- The names that a path is made of. -/
def components (path : Text) : List Text :=
  (Text.splitOn '/' path).filter fun name ↦ name ≠ [] ∧ name ≠ ("." : Text)

/-- Does a path start outside of the working directory? -/
def isRooted (path : Text) : Bool := path.startsWith "/"

/-- A path as it is shown. -/
def pathText (path : Text) : Text :=
  let names := components path
  if isRooted path then "/" ++ Text.join "/" names
  else if names = [] then "."
  else Text.join "/" names

/-- The surrogates that stand for single bytes in file names. -/
def standsForByte (c : CodePoint) : Bool := 0xDC80 ≤ c.val && c.val ≤ 0xDCFF

/-- Can a file have this path? -/
def checkPath (path : Text) : Except PathError Unit :=
  let shown := pathText path
  if shown.any fun c ↦ c.isSurrogate && !standsForByte c then .error (.unencodable shown)
  else if shown.any fun (c : CodePoint) ↦ c.val == 0 then .error .zero
  else .ok ()

/-- The greatest number of bytes in a name. -/
def maximalNameLength : Nat := 255

/-- Is a name of a length that files can have? -/
def fits (name : Text) : Bool := (name.flatMap Encoding.utf8Bytes).length ≤ maximalNameLength

/-- Is there a directory with these names, from the working directory on? -/
def hasDirectory (files : Files) (names : List Text) : Bool :=
  names.isEmpty || files.names.any fun path ↦
    let others := components path
    names.isPrefixOf others && decide (names.length < others.length)

/-- Is there a file with these names, from the working directory on? -/
def hasFile (files : Files) (names : List Text) : Bool :=
  files.names.any fun path ↦ components path = names

/-- The names that lead from some directory on to where a path leads. -/
def resolveFrom? (files : Files) : (reached : List Text) → List Text → Option (List Text)
  | reached, [] => some reached
  | reached, name :: rest =>
    if name = parent then
      if reached ≠ [] ∧ files.hasDirectory reached then resolveFrom? files reached.dropLast rest
      else none
    else resolveFrom? files (reached ++ [name]) rest

/-- The names that lead from the working directory to where a path leads, if it starts there. -/
def resolve? (files : Files) (path : Text) : Option (List Text) :=
  if isRooted path then none else resolveFrom? files [] (components path)

/-- The content of a file, if there is one at a path: one that has the path as it stands, or one
that the path leads to. -/
def read? (files : Files) (path : Text) : Option Bytes :=
  (files.get? path).or do
    let names ← files.resolve? path
    let (_, content) ← List.find? (fun (name, _) ↦ components name = names) files
    return content

/-- The path of what a directory has under a name. -/
def within (directory name : Text) : Text :=
  if directory = [] then name else directory ++ "/" ++ name

/-- Can a directory be made with these names? Neither it nor one around it may be a file. -/
def admitsDirectory (files : Files) (names : List Text) : Bool :=
  (List.range names.length).all fun i ↦ !files.hasFile (names.take (i + 1))

end Files

end ApiTools
