import ApiTools.CommandLine.Run

/-!
# The program

The outermost layer: it takes the arguments, the environment and the file of the document from
outside, hands them to `CommandLine.run`, and carries out what that says. It has no connection to
the web: a document there cannot be fetched, and tools are not served but only told of.
-/

namespace ApiTools

namespace CommandLine

/-- A text for the functions of the system. -/
def systemText (t : Text) : String := String.ofList (t.map fun c ↦ Char.ofNat c.val)

/-- The bytes of a text. -/
def fileBytes (t : Text) : ByteArray := ⟨(t.flatMap Encoding.utf8Bytes).toArray⟩

/-- The variables of the environment that settings are read from. -/
def readEnvironment : IO (Fields Text) := do
  let names := Settings.setters.names
  let found ← (names ++ names.map Text.toUpper).filterMapM fun name ↦ do
    let value ← IO.getEnv (systemText name)
    return value.map fun v ↦ (name, Text.ofString v)
  return found

/-- The file at a path, if it can be read. -/
def readFiles (path : Text) : IO Files := do
  try
    let content ← IO.FS.readBinFile (systemText path)
    return [(path, content.toList)]
  catch _ => return []

/-- The source of the document that arguments and environment lead to. -/
def documentSource? (environment : Fields Text) (arguments : List Text) : Option Text :=
  match parse arguments with
  | .error _ => none
  | .ok invocation =>
    match settingsOf environment invocation.choices with
    | .error _ => none
    | .ok s => s.documentSource

/-- The directory of a path. -/
def directoryOf (path : Text) : Text :=
  (path.reverse.dropWhile fun (c : CodePoint) ↦ c != '/').reverse

/-- Write a file, with the directories around it. -/
def writeFile (path text : Text) : IO Unit := do
  let directory := directoryOf path
  if !directory.isEmpty then IO.FS.createDirAll (systemText directory)
  IO.FS.writeBinFile (systemText path) (fileBytes text)

/-- What is said of a place where tools would be served. -/
def endpointText : Endpoint → Text
  | .web host portNumber => "not served: " ++ host ++ ":" ++ Text.ofInt portNumber
  | .streams name => "not served: " ++ name

/-- What is said of a run that is broken off. -/
def abortText : Abort → Text
  | .settings issues => "invalid settings: " ++ Text.join ", " (issues.map (·.kind.code))
  | .logLevel level => "unknown level: " ++ level
  | .failure e => e.message

/-- Carry out what a run says, and give its exit code. -/
def carryOut (outcome : Except Abort Outcome) : IO Nat := do
  let errors ← IO.getStderr
  match outcome with
  | .error e =>
    errors.write (fileBytes (abortText e ++ "\n"))
    return 1
  | .ok r =>
    for (path, text) in r.files do
      writeFile path text
    (← IO.getStdout).write (fileBytes r.output)
    for endpoint in r.served do
      errors.write (fileBytes (endpointText endpoint ++ "\n"))
    if let some report := r.report then
      errors.write (fileBytes ("Error: " ++ report ++ "\n"))
    return r.exit

/-- The program. -/
def runProgram (arguments : List Text) : IO Nat := do
  let environment ← readEnvironment
  let files ←
    match documentSource? environment arguments with
    | some source => readFiles source
    | none => pure []
  let sources : Sources := ⟨files, [.failure "there is no connection to the web"]⟩
  carryOut (run environment sources arguments .utf8)

end CommandLine

end ApiTools

/-- The program with its arguments. -/
def main (arguments : List String) : IO UInt32 := do
  return UInt32.ofNat (← ApiTools.CommandLine.runProgram (arguments.map ApiTools.Text.ofString))
