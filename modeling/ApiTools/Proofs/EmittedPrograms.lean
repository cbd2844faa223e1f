import ApiTools.Proofs.CleanTexts
import ApiTools.Proofs.EmbeddedTools
import ApiTools.Proofs.Signatures

/-!
# Generated servers as programs

The source of a generated server is read line by line behind its first lines: the URL of the service
that it starts from, its table of tools, and its functions, each with its parameters and the steps
that collect what is given (`program?`). What is read of a server that was written are the functions
of its content, with the tools of the index (`program?_source`). A function that is read runs
on what is given for its parameters, and hands a tool of the table on with what it has collected
(`SourceProgram.handed?`).
-/

namespace ApiTools

namespace Emission

open Catalog (index nonEmpty?)
open Text (IsShown isShown_append_iff isShown_join isShown_of_ascii isShown_ofString)

/-! ### Programs -/

/-- A parameter of a function in a source. -/
structure SourceParameter where
  name : Text
  /-- Has it `None` for its value where none is given? -/
  optional : Bool
deriving DecidableEq

/-- A step of a function in a source: what is tested not to be `None`, and the value that is set
then, with its key. -/
structure SourceStep where
  tested : Text
  key : Text
  value : Text
deriving DecidableEq

/-- A function in a source, offered under an identifier. -/
structure SourceFunction where
  id : Text
  name : Text
  parameters : List SourceParameter
  docstring : Text
  steps : List SourceStep
  /-- The name of the tool in the table that is called. -/
  key : Text
deriving DecidableEq

/-- A server in a source. -/
structure SourceProgram where
  /-- The URL of the service where the environment has none. -/
  serviceUrl : Text
  tools : Fields Tool
  functions : List SourceFunction

namespace SourceFunction

/-- Can a function be called with some arguments? They are parameters, and every parameter has one
or does without. -/
def binds (f : SourceFunction) (keywords : Arguments) : Bool :=
  keywords.all (fun k ↦ k.1 ∈ f.parameters.map (·.name)) &&
    f.parameters.all fun p ↦ p.optional || (keywords.get? p.name).isSome

/-- The value of a name in a call. -/
def local? (f : SourceFunction) (keywords : Arguments) (name : Text) : Option ApiTools.Argument :=
  if name ∈ f.parameters.map (·.name) then some ((keywords.get? name).getD .null) else none

/-- A step of a call. -/
def step? (f : SourceFunction) (keywords : Arguments) (args : Arguments) (s : SourceStep) :
    Option Arguments := do
  match ← f.local? keywords s.tested with
  | .null => return args
  | _ => return args.set s.key (← f.local? keywords s.value)

/-- What a call has collected in the end. -/
def run? (f : SourceFunction) (keywords : Arguments) : Option Arguments :=
  if f.binds keywords then f.steps.foldlM (f.step? keywords) [] else none

end SourceFunction

namespace SourceProgram

/-- The tool that a call is for, and the arguments that it is given. -/
def handed? (program : SourceProgram) (id : Text) (keywords : Arguments) :
    Option (Tool × Arguments) := do
  let f ← program.functions.find? (·.id = id)
  let args ← f.run? keywords
  return (← program.tools.get? f.key, args)

/-- The request that is planned for a tool, if there is a URL of the service. -/
def planned? (program : SourceProgram) (tool : Tool) (args : Arguments)
    (authorization : Option Text) : Option (Except RequestError Request) :=
  (nonEmpty? (some program.serviceUrl)).map fun base ↦ Request.plan tool args base authorization

/-- What is returned where there is no URL of the service. -/
def mocked (tool : Tool) (args : Arguments) : Except RequestError Text :=
  if (Value.object args : ApiTools.Argument).holdsLong then .error .unformattable
  else
    .ok ("Mock response for " ++ tool.method ++ " " ++ tool.path ++ "\nParams: " ++
      Literal.value (.object args))

end SourceProgram

/-! ### The readers -/

/-- A parameter with its type, in a line of its own. -/
def parameter? (line : Text) : Option SourceParameter := do
  match (← behind? "    " line).cut ':' with
  | (_, none) => none
  | (name, some type) =>
    if type.endsWith " = None," then some ⟨name, true⟩
    else if type.endsWith "," then some ⟨name, false⟩
    else none

/-- Parameters up to the end of the head of a function, and the lines behind it. -/
def parameters? : List Text → Option (List SourceParameter × List Text)
  | [] => none
  | line :: rest =>
    if line = ") -> str:" then some ([], rest)
    else do
      let p ← parameter? line
      let (others, rest) ← parameters? rest
      return (p :: others, rest)

/-- A step, in two lines. -/
def step? (test assignment : Text) : Option SourceStep := do
  let tested ← between? "    if " " is not None:" test
  let (key, rest) ← Literal.text? (← behind? "        _args[" assignment)
  return ⟨tested, key, ← behind? "] = " rest⟩

/-- The steps at the start of some lines, and the lines behind them. -/
def steps : List Text → List SourceStep × List Text
  | test :: assignment :: rest =>
    match step? test assignment with
    | some s => (s :: (steps rest).1, (steps rest).2)
    | none => ([], test :: assignment :: rest)
  | rest => ([], rest)

/-- The body of a function: its docstring, its steps and its call. -/
def body? : List Text → Option (Text × List SourceStep × Text)
  | first :: second :: rest => do
    let docstring ← quoted? "    " [] first
    match steps rest with
    | (steps, [last]) =>
      if second = "    _args: Dict[str, Any] = \x7b\x7d" then
        return (docstring, steps,
          ← quoted? "    return await call_api(TOOL_DEFINITIONS[" "], _args)" last)
      else none
    | _ => none
  | _ => none

/-- A function that is offered as a tool. -/
def function? : List Text → Option SourceFunction
  | offer :: head :: rest => do
    let id ← quoted? "@mcp.tool(name=" ")" offer
    let name ← between? "async def " "(" head
    let (parameters, rest) ← parameters? rest
    let (docstring, steps, key) ← body? rest
    return ⟨id, name, parameters, docstring, steps, key⟩
  | _ => none

/-- Does a block offer a tool? -/
def isOffer : List Text → Bool
  | [] => false
  | line :: _ => line.startsWith "@mcp.tool("

/-- The start of the function that sends requests: what it does without a URL of the service, and
how it plans a request with one. -/
def callStart : List Text := [
  "async def call_api(tool: ToolDefinition, args: Dict[str, Any]) -> str:",
  "    if not SERVICE_URL:",
  "        return f\"Mock response for \x7btool.method\x7d \x7btool.path\x7d\\nParams: \x7bargs\x7d\"",
  "",
  "    request = plan(tool, args, SERVICE_URL, authorization=SERVICE_AUTHORIZATION)"].map
    Text.ofString

/-- The URL of the service in the configuration of a server, and the source behind that. -/
def serviceUrl? (t : Text) : Option (Text × Text) := do
  let (url, t) ← literal? "SERVICE_URL = os.getenv(\"SERVICE_URL\", " ")\n" t
  let t ← behind? "SERVICE_AUTHORIZATION = os.getenv(\"SERVICE_AUTHORIZATION\") or None\n" t
  let (_, t) ←
    literal? "CLIENT_TIMEOUT_SECONDS = float(os.getenv(\"CLIENT_TIMEOUT_SECONDS\", " "))\n\n" t
  let (_, t) ← literal? "mcp = FastMCP(" ")\n\n" t
  return (url, t)

/-- The functions behind the table of a server, the first of them the one that sends requests. -/
def functions? (t : Text) : Option (List SourceFunction) :=
  match blocks (Text.splitOn '\n' t) with
  | [] :: call :: others =>
    if callStart.isPrefixOf call then (others.filter isOffer).mapM function? else none
  | _ => none

/-- A server behind its first lines. -/
def program? (t : Text) : Option SourceProgram := do
  let (serviceUrl, t) ← serviceUrl? t
  let (records, t) ← definitions? t
  let tools ← (toolsOf records).toOption
  return ⟨serviceUrl, tools, ← functions? (← behind? "\n" t)⟩

/-! ### Types -/

/-- The annotation of an argument: it stands in its line, and `None` does not end it. -/
structure IsType (t : Text) : Prop where
  shown : t.IsShown
  ending : t.getLast? ≠ some 'e'

section Types

variable {tool : Tool} {ps : List Parameter} {taken : List Text} {own as : List Argument}

private theorem isType_ofString {cs : List Char}
    (hcs : ∀ n ∈ cs.map Char.toNat, 0x20 ≤ n ∧ n < 0x7F)
    (hlast : (cs.map Char.toNat).getLast? ≠ some 0x65) :
    IsType (Text.ofString (String.ofList cs)) where
  shown := isShown_ofString hcs
  ending := by
    rw [Text.ofString_ofList, List.getLast?_map]
    intro h
    obtain ⟨c, hc, heq⟩ := Option.map_eq_some_iff.mp h
    refine hlast ?_
    rw [List.getLast?_map, hc]
    exact congrArg some (congrArg CodePoint.val heq)

private theorem IsType.of_bracket {t : Text} (h : t.IsShown) : IsType (t ++ "]") where
  shown := isShown_append_iff.mpr ⟨h, isShown_ofString (by decide)⟩
  ending := by
    rw [List.getLast?_append_of_ne_nil _ (by decide)]
    decide

private theorem IsType.optional {t : Text} (h : IsType t) (required : Bool) :
    IsType (optional required t) := by
  unfold Emission.optional
  split
  · exact h
  · exact .of_bracket (isShown_append_iff.mpr ⟨isShown_ofString (by decide), h.shown⟩)

private theorem isType_of_annotated {p : Parameter} {t : Text} (h : annotation p = .ok t) :
    IsType t := by
  unfold annotation at h
  split at h
  · next v rest _ =>
    cases h
    have hopen : ("Literal[" : Text).IsShown := isShown_ofString (by decide)
    refine (IsType.of_bracket (isShown_append_iff.mpr ⟨hopen, ?_⟩)).optional p.required
    exact isShown_join (isShown_ofString (by decide))
      (List.forall_mem_map.mpr fun v _ ↦ Literal.isShown_text v)
  · obtain ⟨slot, -, h⟩ := Outcome.bind_ok_iff.mp h
    cases slot <;> cases h <;> exact (isType_ofString (by decide) (by decide)).optional p.required

private theorem isType_parameterArguments (h : parameterArguments ps taken = .ok own) :
    ∀ a ∈ own, IsType a.annotation := by
  induction ps generalizing taken own with
  | nil =>
    cases h
    exact nofun
  | cons p rest ih =>
    rw [parameterArguments_cons] at h
    obtain ⟨type, htype, h⟩ := Outcome.bind_ok_iff.mp h
    obtain ⟨more, hmore, rfl⟩ := Outcome.map_ok_iff.mp h
    exact List.forall_mem_cons.mpr ⟨isType_of_annotated htype, ih hmore⟩

private theorem isType_bodyArguments (tool : Tool) :
    ∀ a ∈ bodyArguments tool, IsType a.annotation := by
  have htype : IsType bodyType := isType_ofString (by decide) (by decide)
  unfold bodyArguments
  split
  · exact List.forall_mem_singleton.mpr (htype.optional tool.bodyRequired)
  · exact nofun

/-- The annotations of a function's arguments are types. -/
theorem isType_of_arguments (h : arguments tool = .ok as) : ∀ a ∈ as, IsType a.annotation := by
  rw [arguments] at h
  obtain ⟨own, hown, h⟩ := Outcome.bind_ok_iff.mp h
  cases h
  intro a ha
  have hperm := List.filter_append_perm (·.required) (own ++ bodyArguments tool)
  rcases List.mem_append.mp (hperm.mem_iff.mp ha) with ha | ha
  · exact isType_parameterArguments hown a ha
  · exact isType_bodyArguments tool a ha

/-- The names of functions and of their arguments are identifiers, and the annotations types. -/
theorem signature_of_content {document : Document} {tools : List Tool} {baseUrl : Text}
    {timeout : Seconds} {c : Content} (h : content document tools baseUrl timeout = .ok c) :
    ∀ f ∈ c.functions, IsIdentifier f.name ∧ ∀ a ∈ f.arguments,
      IsIdentifier a.identifier ∧ IsType a.annotation := by
  rw [content] at h
  obtain ⟨functions, hfunctions, h⟩ := Outcome.bind_ok_iff.mp h
  cases h
  intro f hf
  obtain ⟨-, used, hname⟩ := (names_functionsFrom hfunctions).2 f hf
  have harguments := (functionsFrom_spec hfunctions).2 f hf
  refine ⟨?_, fun a ha ↦ ?_⟩
  · rw [hname]
    exact ((isUsable_identifier f.tool.id).unique used).identifier
  · exact ⟨((wellFormed_arguments harguments).usable a ha).identifier,
      isType_of_arguments harguments a ha⟩

/-- An identifier can be shown. -/
theorem IsIdentifier.isShown {t : Text} (h : IsIdentifier t) : t.IsShown := by
  refine isShown_of_ascii fun c hc ↦ ?_
  have hword := h.word c hc
  simp only [CodePoint.isAsciiWord, CodePoint.isAsciiLetter, CodePoint.isAsciiUpper,
    CodePoint.isAsciiLower, CodePoint.isAsciiDigit, Bool.or_eq_true, Bool.and_eq_true,
    decide_eq_true_eq, beq_iff_eq] at hword
  rcases hword with hword | rfl
  · omega
  · decide

/-- There is no colon in an identifier. -/
theorem IsIdentifier.notMem_colon {t : Text} (h : IsIdentifier t) : CodePoint.ofChar ':' ∉ t :=
  fun hmem ↦ absurd (h.word _ hmem) (by decide)

end Types

/-! ### Functions -/

/-- An argument, as it is read. -/
def parameterOf (a : Argument) : SourceParameter := ⟨a.identifier, !a.required⟩

/-- The collection of an argument, as it is read. -/
def stepOf (a : Argument) : SourceStep := ⟨a.identifier, a.name, a.identifier⟩

/-- A function, as it is read. -/
def sourceOf (f : Function) : SourceFunction where
  id := f.tool.id
  name := f.name
  parameters := f.arguments.map parameterOf
  docstring := f.docstring
  steps := (collected f.arguments).map stepOf
  key := f.tool.id

/-- What stands behind the type of an argument. -/
def missing (a : Argument) : Text := if a.required then "," else " = None,"

/-- The line of an argument. -/
def argumentText (a : Argument) : Text :=
  "    " ++ (a.identifier ++ CodePoint.ofChar ':' :: (" " ++ (a.annotation ++ missing a)))

/-- The lines that collect an argument. -/
def stepTexts (a : Argument) : List Text :=
  ["    if " ++ (a.identifier ++ " is not None:"),
    "        _args[" ++ (Literal.text a.name ++ ("] = " ++ a.identifier))]

/-- The lines of a function behind its head. -/
def bodyTexts (f : Function) : List Text :=
  let call : Text := "    return await call_api(TOOL_DEFINITIONS[" ++
    (Literal.text f.tool.id ++ "], _args)")
  ("    " ++ Literal.text f.docstring) :: Text.ofString "    _args: Dict[str, Any] = \x7b\x7d" ::
    ((collected f.arguments).flatMap stepTexts ++ [call])

/-- The lines of a function. -/
def functionTexts (f : Function) : List Text :=
  ("@mcp.tool(name=" ++ (Literal.text f.tool.id ++ ")")) :: ("async def " ++ (f.name ++ "(")) ::
    (f.arguments.map argumentText ++ Text.ofString ") -> str:" :: bodyTexts f)

section Functions

variable {f : Function} {a : Argument}

private theorem argumentLine_eq (a : Argument) :
    argumentLine a = ("\n" : Text) ++ argumentText a := by
  have hstart : ("\n    " : Text) = "\n" ++ "    " := Text.ofString_eq_append rfl
  have hcolon : (": " : Text) = CodePoint.ofChar ':' :: Text.ofString " " := by decide
  have hmissing : missing a = (if a.required then [] else (" = None" : Text)) ++ "," := by
    unfold missing
    split <;> rfl
  simp only [argumentLine, argumentText, hstart, hcolon, hmissing, List.append_assoc,
    List.cons_append]

private theorem collectLines_eq (a : Argument) :
    collectLines a = (stepTexts a).flatMap fun l ↦ ("\n" : Text) ++ l := by
  have hstart : ("\n    if " : Text) = "\n" ++ "    if " := Text.ofString_eq_append rfl
  have hbreak : (" is not None:\n        _args[" : Text) =
      " is not None:" ++ "\n        _args[" := Text.ofString_eq_append rfl
  have hset : ("\n        _args[" : Text) = "\n" ++ "        _args[" :=
    Text.ofString_eq_append rfl
  simp only [collectLines, stepTexts, hstart, hbreak, hset, List.append_assoc, List.flatMap_cons,
    List.flatMap_nil, List.append_nil]

/-- A function is two blank lines and its own ones. -/
theorem toolFunction_eq (f : Function) :
    toolFunction f = ended ([] :: [] :: functionTexts f) := by
  have hblank : ("\n\n@mcp.tool(name=" : Text) = "\n" ++ "\n@mcp.tool(name=" :=
    Text.ofString_eq_append rfl
  have hoffer : ("\n@mcp.tool(name=" : Text) = "\n" ++ "@mcp.tool(name=" :=
    Text.ofString_eq_append rfl
  have hclose : (")\nasync def " : Text) = ")" ++ "\nasync def " := Text.ofString_eq_append rfl
  have hhead : ("\nasync def " : Text) = "\n" ++ "async def " := Text.ofString_eq_append rfl
  have hresult : ("\n) -> str:\n    " : Text) = "\n" ++ ") -> str:\n    " :=
    Text.ofString_eq_append rfl
  have harrow : (") -> str:\n    " : Text) = ") -> str:" ++ "\n    " :=
    Text.ofString_eq_append rfl
  have hdoc : ("\n    " : Text) = "\n" ++ "    " := Text.ofString_eq_append rfl
  have hstart : ("\n    _args: Dict[str, Any] = \x7b\x7d" : Text) =
      "\n" ++ "    _args: Dict[str, Any] = \x7b\x7d" := Text.ofString_eq_append rfl
  have hcall : ("\n    return await call_api(TOOL_DEFINITIONS[" : Text) =
      "\n" ++ "    return await call_api(TOOL_DEFINITIONS[" := Text.ofString_eq_append rfl
  have hend : ("], _args)\n" : Text) = "], _args)" ++ "\n" := Text.ofString_eq_append rfl
  have hlines : toolFunction f =
      "\n" ++ (((functionTexts f).flatMap fun l ↦ ("\n" : Text) ++ l) ++ "\n") := by
    simp only [toolFunction, functionTexts, bodyTexts, hblank, hoffer, hclose, hhead, hresult,
      harrow, hdoc, hstart, hcall, hend, funext argumentLine_eq, funext collectLines_eq,
      List.flatMap_append, List.flatMap_cons, List.flatMap_nil, List.flatMap_map,
      List.flatMap_assoc, List.append_assoc, List.append_nil]
  rw [hlines, flatMap_newline, List.map_id']
  rfl

private theorem not_endsWith_none {t : Text} (h : t.getLast? ≠ some 'e') :
    (t ++ ",").endsWith " = None," = false := by
  rw [Text.endsWith, Bool.eq_false_iff, ne_eq, List.isSuffixOf_iff_suffix]
  have hsplit : (" = None," : Text) = (" = Non" : Text) ++ [CodePoint.ofChar 'e'] ++ "," := by
    decide
  rintro ⟨before, heq⟩
  rw [hsplit, ← List.append_assoc, ← List.append_assoc] at heq
  have heq := List.append_cancel_right heq
  rw [← heq, List.getLast?_concat] at h
  exact h rfl

/-- The line of an argument is read. -/
theorem parameter?_argumentText (hname : IsIdentifier a.identifier) (htype : IsType a.annotation) :
    parameter? (argumentText a) = some (parameterOf a) := by
  rw [parameter?, argumentText, behind?_append]
  simp only [bind, Option.bind, Text.cut_append_cons hname.notMem_colon]
  unfold missing parameterOf
  cases a.required with
  | false =>
    have hends := endsWith_append (" " ++ a.annotation) " = None,"
    rw [List.append_assoc] at hends
    simp only [Bool.false_eq_true, if_false, hends, if_true, Bool.not_false]
  | true =>
    have hends := endsWith_append (" " ++ a.annotation) ","
    have hlast : ((" " : Text) ++ a.annotation).getLast? ≠ some 'e' := by
      rw [List.getLast?_append]
      cases hlast : a.annotation.getLast? with
      | none => decide
      | some c => rw [Option.some_or, ← hlast]; exact htype.ending
    have hnone := not_endsWith_none hlast
    rw [List.append_assoc] at hends hnone
    simp only [if_true, hends, hnone, Bool.false_eq_true, if_false, Bool.not_true]

/-- The head of a function is read up to its end. -/
theorem parameters?_append {as : List Argument}
    (h : ∀ a ∈ as, IsIdentifier a.identifier ∧ IsType a.annotation) (rest : List Text) :
    parameters? (as.map argumentText ++ Text.ofString ") -> str:" :: rest) =
      some (as.map parameterOf, rest) := by
  induction as with
  | nil => rw [List.map_nil, List.nil_append, parameters?, if_pos rfl, List.map_nil]
  | cons a others ih =>
    obtain ⟨⟨hname, htype⟩, hothers⟩ := List.forall_mem_cons.mp h
    have hline : argumentText a ≠ ") -> str:" := nofun
    rw [List.map_cons, List.cons_append, parameters?, if_neg hline,
      parameter?_argumentText hname htype, ih hothers]
    rfl

/-- The lines that collect an argument are read. -/
theorem step?_stepTexts (a : Argument) :
    step? ("    if " ++ (a.identifier ++ " is not None:"))
      ("        _args[" ++ (Literal.text a.name ++ ("] = " ++ a.identifier))) =
        some (stepOf a) := by
  have hends : Literal.Ended ("] = " ++ a.identifier) := Literal.ended_cons rfl _
  rw [step?, between?_append, behind?_append]
  simp only [bind, Option.bind, Literal.text?_text a.name hends, behind?_append, pure]
  rfl

/-- The steps of a function are read up to its last line. -/
theorem steps_append (as : List Argument) (last : Text) :
    steps (as.flatMap stepTexts ++ [last]) = (as.map stepOf, [last]) := by
  induction as with
  | nil => rfl
  | cons a others ih =>
    rw [List.flatMap_cons, stepTexts, List.append_assoc, List.cons_append, List.cons_append,
      List.nil_append, steps, step?_stepTexts]
    simp only [ih, List.map_cons]

/-- The body of a function is read. -/
theorem body?_bodyTexts (f : Function) :
    body? (bodyTexts f) = some (f.docstring, (collected f.arguments).map stepOf, f.tool.id) := by
  have hend : Literal.Ended [] := nofun
  have hclose : Literal.Ended "], _args)" := Literal.ended_cons rfl _
  have hdoc := quoted?_append "    " f.docstring hend
  rw [List.append_nil] at hdoc
  rw [bodyTexts, body?, hdoc, steps_append]
  simp only [bind, Option.bind, if_true, quoted?_append _ f.tool.id hclose, pure]

/-- A function is read. -/
theorem function?_functionTexts
    (h : ∀ a ∈ f.arguments, IsIdentifier a.identifier ∧ IsType a.annotation) :
    function? (functionTexts f) = some (sourceOf f) := by
  have hclose : Literal.Ended ")" := Literal.ended_cons rfl _
  rw [functionTexts, function?, quoted?_append _ f.tool.id hclose, between?_append]
  simp only [bind, Option.bind, parameters?_append h, body?_bodyTexts, pure]
  rfl

end Functions

/-! ### Servers -/

section Servers

variable {f : Function} {a : Argument} {c : Content}

/-- A line that is not blank. -/
def IsLine (t : Text) : Prop := t ≠ [] ∧ CodePoint.ofChar '\n' ∉ t

private theorem isLine_append {cs : List Char} {t : Text} (hne : cs ≠ [])
    (hcs : ∀ n ∈ cs.map Char.toNat, 0x20 ≤ n ∧ n < 0x7F) (ht : t.IsShown) :
    IsLine (Text.ofString (String.ofList cs) ++ t) := by
  refine ⟨List.append_ne_nil_of_left_ne_nil ?_ t,
    (isShown_append_iff.mpr ⟨isShown_ofString hcs, ht⟩).notMem_newline⟩
  rw [Text.ofString_ofList]
  exact fun h ↦ hne (List.map_eq_nil_iff.mp h)

private theorem isLine_argumentText (hname : IsIdentifier a.identifier)
    (htype : IsType a.annotation) : IsLine (argumentText a) := by
  have hmissing : (missing a).IsShown := by
    unfold missing
    split <;> exact isShown_ofString (by decide)
  have hspace : (" " : Text).IsShown := isShown_ofString (by decide)
  refine isLine_append (by decide) (by decide) ?_
  refine isShown_append_iff.mpr ⟨hname.isShown, List.forall_mem_cons.mpr ⟨by decide +kernel, ?_⟩⟩
  exact isShown_append_iff.mpr ⟨hspace, isShown_append_iff.mpr ⟨htype.shown, hmissing⟩⟩

private theorem isLine_stepTexts (hname : IsIdentifier a.identifier) :
    ∀ l ∈ stepTexts a, IsLine l := by
  have htest : (" is not None:" : Text).IsShown := isShown_ofString (by decide)
  have hset : ("] = " : Text).IsShown := isShown_ofString (by decide)
  refine List.forall_mem_cons.mpr ⟨?_, List.forall_mem_singleton.mpr ?_⟩
  · exact isLine_append (by decide) (by decide)
      (isShown_append_iff.mpr ⟨hname.isShown, htest⟩)
  · refine isLine_append (by decide) (by decide) ?_
    exact isShown_append_iff.mpr
      ⟨Literal.isShown_text a.name, isShown_append_iff.mpr ⟨hset, hname.isShown⟩⟩

/-- None of the lines of a function is blank. -/
theorem isLine_functionTexts (hname : IsIdentifier f.name)
    (h : ∀ a ∈ f.arguments, IsIdentifier a.identifier ∧ IsType a.annotation) :
    ∀ l ∈ functionTexts f, IsLine l := by
  have hopen : ("(" : Text).IsShown := isShown_ofString (by decide)
  have hclose : (")" : Text).IsShown := isShown_ofString (by decide)
  have hargs : ("], _args)" : Text).IsShown := isShown_ofString (by decide)
  have hid := Literal.isShown_text f.tool.id
  rw [functionTexts, bodyTexts]
  refine List.forall_mem_cons.mpr ⟨?_, List.forall_mem_cons.mpr ⟨?_, ?_⟩⟩
  · exact isLine_append (by decide) (by decide) (isShown_append_iff.mpr ⟨hid, hclose⟩)
  · exact isLine_append (by decide) (by decide)
      (isShown_append_iff.mpr ⟨hname.isShown, hopen⟩)
  refine List.forall_mem_append.mpr ⟨List.forall_mem_map.mpr fun a ha ↦ ?_, ?_⟩
  · exact isLine_argumentText (h a ha).1 (h a ha).2
  refine List.forall_mem_cons.mpr ⟨⟨by decide, by decide⟩, List.forall_mem_cons.mpr ⟨?_, ?_⟩⟩
  · exact isLine_append (by decide) (by decide) (Literal.isShown_text f.docstring)
  refine List.forall_mem_cons.mpr ⟨⟨by decide, by decide⟩, List.forall_mem_append.mpr ⟨?_, ?_⟩⟩
  · refine List.forall_mem_flatMap.mpr fun a ha ↦ isLine_stepTexts (h a ?_).1
    exact (collected_perm f.arguments).mem_iff.mp ha
  · exact List.forall_mem_singleton.mpr (isLine_append (by decide) (by decide)
      (isShown_append_iff.mpr ⟨hid, hargs⟩))

/-- A function is offered. -/
theorem isOffer_functionTexts (f : Function) : isOffer (functionTexts f) = true := by
  have hpiece : ("@mcp.tool(name=" : Text) = "@mcp.tool(" ++ "name=" := by decide
  rw [functionTexts, isOffer, hpiece, List.append_assoc, Text.startsWith,
    List.isPrefixOf_iff_prefix]
  exact List.prefix_append _ _

/-- The function that sends requests is a block behind two blank lines. -/
private theorem exists_call : ∃ call, IsBlock call ∧ callStart <+: call ∧
    ∀ u, Text.splitOn '\n' (callFunction ++ u) = [] :: [] :: (call ++ Text.splitOn '\n' u) := by
  refine ⟨_, ?_, ⟨_, rfl⟩, fun u ↦ splitOn_block ?_ u⟩
  · rw [map_ofString (by repeat' constructor)]
    decide +kernel
  · exact notMem_newline_of_spelled (by repeat' constructor) (by decide +kernel)

/-- A block is not offered unless one of its lines starts with the sign of an offer. -/
private theorem filter_isOffer {ls : List Text} (h : ∀ l ∈ ls, l.head? ≠ some '@') :
    (blocks ls).filter isOffer = [] := by
  rw [List.filter_eq_nil_iff]
  intro block hblock
  cases block with
  | nil => exact Bool.false_ne_true
  | cons l _ =>
    intro hoffer
    rw [isOffer, Text.startsWith, List.isPrefixOf_iff_prefix] at hoffer
    obtain ⟨more, rfl⟩ := hoffer
    exact h _ (subset_of_mem_blocks _ hblock List.mem_cons_self) rfl

/-- The end of a server has no tools to offer. -/
private theorem exists_tail : ∃ tail, (blocks tail).filter isOffer = [] ∧
    Text.splitOn '\n' serverTail = [] :: [] :: tail := by
  refine ⟨_, ?_, (congrArg _ (List.append_nil _)).symm.trans (splitOn_block ?_ [])⟩
  · rw [map_ofString (by repeat' constructor)]
    exact filter_isOffer (by decide +kernel)
  · exact notMem_newline_of_spelled (by repeat' constructor) (by decide +kernel)

private theorem mapM_function? {fs : List Function}
    (h : ∀ f ∈ fs, ∀ a ∈ f.arguments, IsIdentifier a.identifier ∧ IsType a.annotation) :
    (fs.map functionTexts).mapM function? = some (fs.map sourceOf) := by
  induction fs with
  | nil => rfl
  | cons f rest ih =>
    obtain ⟨hf, hrest⟩ := List.forall_mem_cons.mp h
    rw [List.map_cons, List.mapM_cons, function?_functionTexts hf, ih hrest]
    rfl

/-- The functions of a server are read. -/
theorem functions?_functions {fs : List Function} (h : ∀ f ∈ fs, IsIdentifier f.name ∧
      ∀ a ∈ f.arguments, IsIdentifier a.identifier ∧ IsType a.annotation) :
    functions? (callFunction ++ (fs.flatMap toolFunction ++ serverTail)) =
      some (fs.map sourceOf) := by
  obtain ⟨call, hcall, hstart, hsplit⟩ := exists_call
  obtain ⟨tail, htail, hend⟩ := exists_tail
  have hline : ∀ f ∈ fs, ∀ l ∈ functionTexts f, IsLine l := fun f hf ↦
    isLine_functionTexts (h f hf).1 (h f hf).2
  have hall : fs.flatMap toolFunction = ended (fs.flatMap fun f ↦ [] :: [] :: functionTexts f) := by
    rw [ended, List.flatMap_assoc]
    exact congrArg fs.flatMap (funext toolFunction_eq)
  have hlines : ∀ l ∈ fs.flatMap fun f ↦ [] :: [] :: functionTexts f,
      CodePoint.ofChar '\n' ∉ l := by
    refine List.forall_mem_flatMap.mpr fun f hf ↦ ?_
    exact List.forall_mem_cons.mpr ⟨List.not_mem_nil, List.forall_mem_cons.mpr
      ⟨List.not_mem_nil, fun l hl ↦ (hline f hf l hl).2⟩⟩
  have hblocks := blocks_flatMap hcall
    (fun f hf ↦ isBlock_of_forall fun l hl ↦ (hline f hf l hl).1) tail
  have hoffers : (fs.map functionTexts).filter isOffer = fs.map functionTexts := by
    rw [List.filter_eq_self, List.forall_mem_map]
    exact fun f _ ↦ isOffer_functionTexts f
  rw [functions?, hsplit, hall, splitOn_ended hlines, hend, blocks, hblocks]
  simp only [List.isPrefixOf_iff_prefix.mpr hstart, if_true, List.filter_append, hoffers, htail,
    List.append_nil, mapM_function? fun f hf ↦ (h f hf).2]

/-- The configuration of a server is read. -/
theorem serviceUrl?_serverSettings (c : Content) (rest : Text) :
    serviceUrl? (serverSettings c ++ rest) = some (c.baseUrl, rest) := by
  have hone : ∀ t, Literal.Ended (")\n" ++ t) := fun t ↦ Literal.ended_cons rfl _
  have htwo : ∀ t, Literal.Ended ("))\n\n" ++ t) := fun t ↦ Literal.ended_cons rfl _
  have hblank : ∀ t, Literal.Ended (")\n\n" ++ t) := fun t ↦ Literal.ended_cons rfl _
  simp only [serverSettings, List.append_assoc, serviceUrl?, Option.bind_eq_bind, Option.bind_some,
    literal?_append _ _ (hone _), behind?_append, literal?_append _ _ (htwo _),
    literal?_append _ _ (hblank _), Option.pure_def]

variable {document : Document} {tools : List Tool} {baseUrl : Text} {timeout : Seconds}

private theorem program?_of_functions (h : content document tools baseUrl timeout = .ok c)
    {source : Text} {fs : List SourceFunction} (hsource : functions? source = some fs) :
    program? (serverSettings c ++ (definitions c ++ source)) =
      some ⟨c.baseUrl, index tools, fs⟩ := by
  rw [program?, serviceUrl?_serverSettings]
  simp only [Option.bind_eq_bind, Option.bind_some, definitions?_definitions (distinct_records h),
    records_of_content h, toolsOf_map, Except.toOption, behind?_append, hsource, Option.pure_def]

/-- A server is read behind its first lines: with its URL, the tools of the index, and what is read
of its functions. -/
theorem program?_source (h : content document tools baseUrl timeout = .ok c) :
    program? (serverSettings c ++ (definitions c ++
        (callFunction ++ (c.functions.flatMap toolFunction ++ serverTail)))) =
      some ⟨c.baseUrl, index tools, c.functions.map sourceOf⟩ :=
  program?_of_functions h (functions?_functions (signature_of_content h))

end Servers

end Emission

end ApiTools
