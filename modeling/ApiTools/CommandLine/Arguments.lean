import ApiTools.Json.Fields
import ApiTools.Number.Typed
import ApiTools.Text.Numeral
import ApiTools.Text.Pattern

/-!
# Arguments

Arguments are switches that hold for every command, the command, and switches of its own. A
switch may be shortened as long as it is clear which one is meant. Its value follows it as an
argument of its own or behind an equals sign. Every argument is classified before the first one
takes effect; switches then take effect in their order, of equal ones the last.
-/

namespace ApiTools

/-- What can be done. -/
inductive Command where
  | generate
  | serve
  | tools
deriving DecidableEq

/-- The name of a command. -/
def Command.name : Command → Text
  | .generate => "generate"
  | .serve => "serve"
  | .tools => "tools"

/-- The command of a name. -/
def Command.ofName? (name : Text) : Option Command :=
  [Command.generate, .serve, .tools].find? fun c ↦ c.name = name

/-- What can be said beside the command. -/
inductive Switch where
  | help
  | debug
  | serviceUrl
  | serviceAuthorization
  | source
  | output
  | timeout
deriving DecidableEq

/-- Does a switch have a value? -/
def Switch.takesValue : Switch → Bool
  | .help | .debug => false
  | _ => true

namespace CommandLine

/-- How arguments end a program before it does anything. -/
inductive Ending where
  /-- The arguments ask for help. -/
  | help
  /-- The arguments make no sense. -/
  | misuse
deriving DecidableEq

/-- The exit code of an ending. -/
def Ending.exit : Ending → Nat
  | .help => 0
  | .misuse => 2

/-! ## Choices -/

/-- What the switches say. -/
structure Choices where
  debug : Bool
  serviceUrl : Option Text
  serviceAuthorization : Option Text
  source : Option Text
  output : Option Text
  timeout : Option Double
deriving DecidableEq

namespace Choices

/-- Nothing said. -/
def empty : Choices := ⟨false, none, none, none, none, none⟩

/-- A switch given without a value. -/
def flag (c : Choices) : Switch → Except Ending Choices
  | .help => .error .help
  | .debug => .ok { c with debug := true }
  | _ => .error .misuse

/-- A switch given with a value. -/
def value (c : Choices) (t : Text) : Switch → Except Ending Choices
  | .help | .debug => .error .misuse
  | .serviceUrl => .ok { c with serviceUrl := some t }
  | .serviceAuthorization => .ok { c with serviceAuthorization := some t }
  | .source => .ok { c with source := some t }
  | .output => .ok { c with output := some t }
  | .timeout =>
    match Double.ofTyped? t with
    | some x => .ok { c with timeout := some x }
    | none => .error .misuse

end Choices

/-! ## Classification -/

/-- The switches that are understood at some place, by their names. -/
abbrev Grammar := Fields Switch

/-- The switches before the command. -/
def general : Grammar := [("-h", .help), ("--help", .help), ("--service-url", .serviceUrl),
  ("--service-auth", .serviceAuthorization), ("--debug", .debug)]

/-- The switches behind a command. -/
def ofCommand : Command → Grammar
  | .generate => [("-h", .help), ("--help", .help), ("--url", .source), ("--output", .output),
    ("--timeout", .timeout)]
  | .serve | .tools => [("-h", .help), ("--help", .help), ("--url", .source)]

/-- What an argument is taken for. -/
inductive Word where
  /-- A command or a value. -/
  | plain
  /-- The two hyphens behind which everything is plain. -/
  | separator
  | switch (s : Switch)
  /-- A switch and, behind an equals sign, its value. -/
  | assigned (s : Switch) (value : Text)
  /-- A switch of one letter with something right behind it. -/
  | clustered (s : Switch) (rest : Text)
  /-- A switch that is not understood. -/
  | unknown
deriving DecidableEq

/-- The two hyphens at the start of a long name. -/
def dashes : Text := "--"

/-- A negative number: a hyphen, and digits with at most one point among them that is not the
last. -/
def isNegativeNumber (t : Text) : Bool :=
  let digit := Pattern.one CodePoint.isDecimal
  let minus := Pattern.word "-"
  (Pattern.oneOf [.seq minus (.oneOrMore digit),
    .inOrder [minus, .many digit, .word ".", .oneOrMore digit]]).takesLine t

namespace Grammar

/-- What a name that is none of a switch may be short for. -/
def candidates (g : Grammar) (t : Text) : List Word :=
  if t.startsWith dashes then
    let (name, value) := t.cut '='
    (g.filter fun f ↦ f.1.startsWith name).map fun f ↦
      match value with
      | none => .switch f.2
      | some v => .assigned f.2 v
  else
    (g.filter fun f ↦ f.1 = t.take 2).map fun f ↦ .clustered f.2 (t.drop 2)

/-- An argument that is a switch by its full name, perhaps with a value. -/
def named? (g : Grammar) (t : Text) : Option Word :=
  match g.get? t with
  | some s => some (.switch s)
  | none =>
    match t.cut '=' with
    | (name, some v) => (g.get? name).map fun s ↦ .assigned s v
    | (_, none) => none

/-- What an argument is taken for. One that may be several switches makes no sense. -/
def word (g : Grammar) (t : Text) : Except Ending Word :=
  let hyphen : Text := "-"
  if t = hyphen ∨ ¬t.startsWith hyphen then .ok .plain
  else
    match g.named? t with
    | some w => .ok w
    | none =>
      match g.candidates t with
      | [] =>
        .ok (if isNegativeNumber t || t.any (fun (c : CodePoint) ↦ c == ' ') then .plain
          else .unknown)
      | [w] => .ok w
      | _ => .error .misuse

/-- What arguments are taken for. -/
def words (g : Grammar) : List Text → Except Ending (List (Text × Word))
  | [] => .ok []
  | t :: rest =>
    if t = dashes then .ok ((t, .separator) :: rest.map fun t ↦ (t, .plain))
    else do
      let w ← g.word t
      let more ← words g rest
      return (t, w) :: more

end Grammar

/-! ## Reading -/

/-- Is what stands right behind the letter for help made of letters? The letter may be repeated;
behind its last repetition nothing is looked at but the first character. -/
def isCluster (rest : Text) : Bool :=
  match rest.dropWhile fun (c : CodePoint) ↦ c == 'h' with
  | [] => true
  | c :: _ => c != '-' && c != '='

/-- What was read. -/
structure Reading where
  choices : Choices
  /-- Was everything understood? -/
  understood : Bool

/-- Switches read one after the other. Before the command, the reading ends at what is plain;
behind it, nothing plain is understood. -/
def read (untilPlain : Bool) :
    Reading → List (Text × Word) → Except Ending (Reading × List (Text × Word))
  | r, [] => .ok (r, [])
  | r, (t, w) :: rest =>
    match w with
    | .plain | .separator =>
      if untilPlain then .ok (r, (t, w) :: rest)
      else read untilPlain { r with understood := false } rest
    | .unknown => read untilPlain { r with understood := false } rest
    | .assigned s v => do
      let choices ← r.choices.value v s
      read untilPlain { r with choices } rest
    | .clustered s letters => do
      let choices ←
        if s.takesValue then r.choices.value letters s
        else if isCluster letters then r.choices.flag s
        else .error .misuse
      read untilPlain { r with choices } rest
    | .switch s =>
      if s.takesValue then
        match rest with
        | (v, .plain) :: rest => do
          let choices ← r.choices.value v s
          read untilPlain { r with choices } rest
        | _ => .error .misuse
      else do
        let choices ← r.choices.flag s
        read untilPlain { r with choices } rest

/-- What arguments ask for. -/
structure Invocation where
  command : Command
  choices : Choices
deriving DecidableEq

/-- What arguments ask for. -/
def parse (arguments : List Text) : Except Ending Invocation := do
  let words ← general.words arguments
  let (r, rest) ← read true ⟨.empty, true⟩ words
  match rest with
  | [] => .error .misuse
  | (name, _) :: rest =>
    match Command.ofName? name with
    | none => .error .misuse
    | some command => do
      let words ← (ofCommand command).words (rest.map (·.1))
      let (r, _) ← read false r words
      if r.understood then .ok ⟨command, r.choices⟩ else .error .misuse

end CommandLine

end ApiTools
