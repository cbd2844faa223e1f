import ApiTools.Emission.Project
import ApiTools.Files.Path

/-!
# Writing projects

A project is written below an output directory: first its directories are made, then its files
are written one after the other. What was written before something went wrong stays.
-/

namespace ApiTools

namespace Emission

/-- Why a project was not written, or not all of it. -/
inductive WriteError where
  | path (e : PathError)
  /-- A directory cannot be made. -/
  | blocked
  | model (e : ModelError)
  /-- The text of a file cannot be written in UTF-8. -/
  | unencodable (text : Text)
deriving DecidableEq

/-- The report of a project that was not written. -/
def WriteError.message : WriteError → Text
  | .path e => e.message
  | .blocked => "[Errno "
  | .model _ => "a type is unknown"
  | .unencodable text => Encoding.surrogateReport text

/-- What writing leaves: the files that there are now, in the order in which they were written, and
the directory of the project if nothing went wrong. -/
structure Written where
  files : Fields Text
  outcome : Except WriteError Text

/-- Files written one after the other into a directory. The first whose text cannot be written is
left empty, and is the last. -/
def writeFiles (directory : Text) : Fields Text → Written
  | [] => ⟨[], .ok directory⟩
  | (name, text) :: rest =>
    let path := directory ++ "/" ++ name
    if text.any CodePoint.isSurrogate then ⟨[(path, [])], .error (.unencodable text)⟩
    else
      let more := writeFiles directory rest
      { more with files := (path, text) :: more.files }

/-- The directory of a project below an output directory. -/
def projectDirectory (output title : Text) : Text :=
  Files.pathText (Files.within output (directoryName title))

/-- Can a directory be made, with all those around it? -/
def canMake (files : Files) (directory : Text) : Bool :=
  let names := Files.components directory
  names.all Files.fits && files.admitsDirectory names

/-- A project written below an output directory. -/
def write (files : Files) (output : Text) (document : Document) (tools : List Tool)
    (baseUrl : Text) (timeout : Seconds) : Written :=
  let directory := projectDirectory output document.info.title
  let inner := Files.within directory "src"
  match Files.checkPath inner with
  | .error e => ⟨[], .error (.path e)⟩
  | .ok () =>
    if canMake files inner then
      match content document tools baseUrl timeout with
      | .error e => ⟨[], .error (.model e)⟩
      | .ok c => writeFiles directory (Emission.files c)
    else ⟨[], .error .blocked⟩

end Emission

end ApiTools
