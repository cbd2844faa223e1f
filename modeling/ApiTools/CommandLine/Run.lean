import ApiTools.CommandLine.Arguments
import ApiTools.CommandLine.Failure
import ApiTools.Json.Writer
import ApiTools.Server.Http
import ApiTools.Settings.Read
import ApiTools.Tool.Record

/-!
# Running commands

The settings come from the environment, and the switches change them. A command then loads the
tools and prints them, writes a project for them, or serves them. What is printed has to be of code
points that the encoding of the console has: of the texts printed here only the name of a project's
directory may hold others, and its project is there by then.
-/

namespace ApiTools

namespace CommandLine

/-- The settings with what the switches say. Empty texts say nothing. -/
def Choices.apply (c : Choices) (s : Settings) : Settings :=
  { s with
    serviceUrl := (Catalog.nonEmpty? c.serviceUrl).getD s.serviceUrl
    serviceAuthorization := (Catalog.nonEmpty? c.serviceAuthorization).or s.serviceAuthorization
    logLevel := if c.debug then "DEBUG" else s.logLevel
    documentSource := (Catalog.nonEmpty? c.source).or s.documentSource
    outputDirectory := (Catalog.nonEmpty? c.output).getD s.outputDirectory
    clientTimeout := c.timeout.getD s.clientTimeout }

/-- The levels from which on the log can be kept. -/
def logLevels : List Text :=
  ["CRITICAL", "FATAL", "ERROR", "WARN", "WARNING", "INFO", "DEBUG", "NOTSET"]

/-- Where tools are served. -/
inductive Endpoint where
  | web (host : Text) (portNumber : Int)
  /-- On the standard streams, under a name. -/
  | streams (name : Text)
deriving DecidableEq

/-- What texts are printed on. Its encoding has all of ASCII. -/
structure Console where
  /-- What is reported of a text that the encoding cannot write. -/
  refusal? : Text → Option Text
  refusal?_ascii : ∀ t : Text, (∀ c ∈ t, c.isAscii) → refusal? t = none

namespace Console

/-- A console that takes every text. -/
def all : Console where
  refusal? _ := none
  refusal?_ascii _ _ := rfl

/-- A console that writes UTF-8, and so no surrogates. -/
def utf8 : Console where
  refusal? t := if t.any CodePoint.isSurrogate then some (Encoding.surrogateReport t) else none
  refusal?_ascii t h := by
    refine if_neg fun hany ↦ ?_
    obtain ⟨c, hc, hsurrogate⟩ := List.any_eq_true.mp hany
    have hascii := h c hc
    simp only [CodePoint.isAscii, CodePoint.isSurrogate, Bool.and_eq_true,
      decide_eq_true_eq] at hascii hsurrogate
    omega

end Console

/-- What a run leaves. -/
structure Outcome where
  exit : Nat
  output : Text
  /-- What is told of a failure. -/
  report : Option Text
  served : List Endpoint
  /-- The files made, in the order in which they were. -/
  files : Fields Text
deriving DecidableEq

namespace Outcome

/-- Nothing left but an exit code. -/
def exited (exit : Nat) : Outcome := ⟨exit, [], none, [], []⟩

/-- A success that has printed something. -/
def printed (output : Text) : Outcome := { exited 0 with output }

end Outcome

/-- Why a run is broken off. -/
inductive Abort where
  | settings (issues : List Issue)
  | logLevel (level : Text)
  | failure (e : Failure)
deriving DecidableEq

/-- The tools that a command works on, and their document. -/
def loadTools (s : Settings) (sources : Sources) :
    Except Failure (List Tool × Option Document) :=
  let answer := (Registry.empty s).load 0 sources none
  match answer.outcome.outcome with
  | .error e => .error (.registry e)
  | .ok tools => .ok (tools, answer.registry.document)

/-- The catalog of tools as it is printed. -/
def catalogRecord (tools : List Tool) : Json :=
  let repeated : Fields Json := Fields.ofList (tools.filterMap fun t ↦
    match Catalog.repeatedParameters t with
    | [] => none
    | names => some (t.id, .array (names.map Value.string)))
  .object [("tools", .array (tools.map Tool.toRecord)),
    ("id_collisions", .int (Catalog.collisions tools).length),
    ("parameter_name_collisions", .object repeated)]

/-- A failure that is reported. -/
def failed (files : Fields Text) (e : Failure) : Except Abort Outcome :=
  if e.isReported then .ok { Outcome.exited 1 with report := some e.message, files }
  else .error (.failure e)

/-- Print the catalog. It is ASCII, which every console takes. -/
def runTools (tools : List Tool) : Outcome :=
  .printed (Json.write .indented (catalogRecord tools) ++ "\n")

/-- The line that tells of a project. -/
def generatedLine (directory : Text) : Text := "Generated MCP server project in " ++ directory

/-- Write a project, and tell of it. -/
def runGenerate (s : Settings) (files : Files) (document : Document) (tools : List Tool)
    (console : Console := .all) : Except Abort Outcome :=
  let written := Emission.write files s.outputDirectory document tools s.serviceUrl
    (.double s.clientTimeout)
  match written.outcome with
  | .error e => failed written.files (.write e)
  | .ok directory =>
    let line := generatedLine directory
    match console.refusal? line with
    | some report => .ok { Outcome.exited 1 with report := some report, files := written.files }
    | none => .ok { Outcome.printed (line ++ "\n") with files := written.files }

/-- Serve the tools. -/
def runServe (s : Settings) (document : Option Document) (tools : List Tool) :
    Except Abort Outcome :=
  match Server.build s document tools with
  | .error e => failed [] (.server e)
  | .ok server =>
    let endpoint : Endpoint :=
      if Http.isOnWeb s then .web s.host s.portNumber else .streams server.name
    .ok { Outcome.exited 0 with served := [endpoint] }

/-- A command with some settings. -/
def runCommand (s : Settings) (sources : Sources) (command : Command)
    (console : Console := .all) : Except Abort Outcome :=
  match loadTools s sources with
  | .error e => failed [] e
  | .ok (tools, document) =>
    match command, document with
    | .tools, _ => .ok (runTools tools)
    | .serve, document => runServe s document tools
    | .generate, some document => runGenerate s sources.files document tools console
    | .generate, none => .ok (.exited 0)

/-- The settings of a run. -/
def settingsOf (environment : Fields Text) (choices : Choices) : Checked Settings :=
  (Settings.load environment []).map choices.apply

/-- A program run with an environment, sources and arguments, on a console. -/
def run (environment : Fields Text) (sources : Sources) (arguments : List Text)
    (console : Console := .all) : Except Abort Outcome :=
  match parse arguments with
  | .error ending => .ok (.exited ending.exit)
  | .ok invocation =>
    match settingsOf environment invocation.choices with
    | .error issues => .error (.settings issues)
    | .ok s =>
      if s.logLevel.toUpper ∈ logLevels then runCommand s sources invocation.command console
      else .error (.logLevel s.logLevel)

end CommandLine

end ApiTools
