import ApiTools.Literal.Basic
import ApiTools.Tool.Catalog
import ApiTools.Tool.InputModel

/-!
# Signatures of generated functions

A generated server has one function for each tool of a catalog's index. Its name and the names
of its arguments are identifiers of the Python language, told apart from each other, from the
keywords and from the names that the function's body uses.
-/

namespace ApiTools

namespace Emission

/-- The words that are no identifiers. -/
def keywords : List Text :=
  ["False", "None", "True", "and", "as", "assert", "async", "await", "break", "class", "continue",
    "def", "del", "elif", "else", "except", "finally", "for", "from", "global", "if", "import",
    "in", "is", "lambda", "nonlocal", "not", "or", "pass", "raise", "return", "try", "while",
    "with", "yield"].map Text.ofString

/-- The names that the body of every generated function uses. -/
def reserved : List Text := ["_args", "call_api", "TOOL_DEFINITIONS", "mcp"]

/-- Does an identifier need letters before it: is it empty, a keyword, or does it start with a
digit? -/
def needsLetters (t : Text) : Bool :=
  match t with
  | [] => true
  | c :: _ => c.isAsciiDigit || decide (t ∈ keywords)

/-- A name as an identifier. -/
def identifier (name : Text) : Text :=
  let word : Text := name.map fun (c : CodePoint) ↦ if c.isAsciiWord then c else '_'
  let spelled := if needsLetters word then "p_" ++ word else word
  if spelled ∈ reserved then spelled ++ "_" else spelled

/-- The name of a project: the title in lower case, with underscores for everything but ASCII
letters, digits and underscores, and starting with a letter. -/
def packageName (title : Text) : Text :=
  let name : Text := title.toLower.map fun (c : CodePoint) ↦
    if c.isAsciiLower || c.isAsciiDigit || c == '_' then c else '_'
  match name with
  | [] => "generated"
  | c :: _ => if c.isAsciiLower then name else "mcp_" ++ name

/-- An argument of a generated function. -/
structure Argument where
  /-- The name under which the argument is collected. -/
  name : Text
  identifier : Text
  annotation : Text
  required : Bool
  isBody : Bool := false
deriving DecidableEq

/-- A generated function. -/
structure Function where
  tool : Tool
  name : Text
  docstring : Text
  arguments : List Argument
deriving DecidableEq

/-- A type that allows a missing value. -/
def optional (required : Bool) (type : Text) : Text :=
  if required then type else "Optional[" ++ type ++ "]"

/-- The annotation of a parameter. -/
def annotation (p : Parameter) : Except ModelError Text := do
  let type : Text ←
    match p.enumValues with
    | some (v :: rest) =>
      .ok ("Literal[" ++ Text.join ", " ((v :: rest).map Literal.text) ++ "]")
    | _ =>
      match ← SlotType.ofParameter p with
      | .integer => .ok "int"
      | .number => .ok "float"
      | .boolean => .ok "bool"
      | _ => .ok "str"
  return optional p.required type

/-- The arguments for some parameters; `taken` are the identifiers in use. -/
def parameterArguments : List Parameter → (taken : List Text) → Except ModelError (List Argument)
  | [], _ => .ok []
  | p :: rest, taken => do
    let name := Identifier.unique (identifier p.sanitizedName) taken
    return ⟨p.name, name, ← annotation p, p.required, false⟩ ::
      (← parameterArguments rest (name :: taken))

/-- The type of bodies. -/
def bodyType : Text := "Union[str, Dict[str, Any]]"

/-- The argument for the body, if the tool takes one. -/
def bodyArguments (tool : Tool) : List Argument :=
  if tool.hasBody then
    [⟨"body", "body", optional tool.bodyRequired bodyType, tool.bodyRequired, true⟩]
  else []

/-- The arguments of a tool's function, those without a default first. -/
def arguments (tool : Tool) : Except ModelError (List Argument) := do
  let own ← parameterArguments tool.parameters (if tool.hasBody then ["body"] else [])
  let all := own ++ bodyArguments tool
  return all.filter (·.required) ++ all.filter (!·.required)

/-- One line about each parameter that has a description. -/
def parameterLine? (p : Parameter) : Option Text :=
  (Catalog.nonEmpty? p.description).map fun d ↦ "    " ++ p.name ++ ": " ++ d

/-- What a generated function says about itself. -/
def docstring (tool : Tool) : Text :=
  let documented := tool.parameters.filterMap parameterLine?
  let bodyLines : List Text :=
    if tool.hasBody then ["    body: " ++ tool.bodyDescription.getD "None"] else []
  let lines : List Text := documented ++ bodyLines
  let heading : List Text := if lines = [] then [] else [[], "Args:"]
  Text.join "\n" ([tool.description, [], tool.operation] ++ heading ++ lines)

/-- The functions for some tools; `taken` are the names in use. -/
def functionsFrom : List Tool → (taken : List Text) → Except ModelError (List Function)
  | [], _ => .ok []
  | tool :: rest, taken => do
    let name := Identifier.unique (identifier tool.id) taken
    return ⟨tool, name, docstring tool, ← arguments tool⟩ ::
      (← functionsFrom rest (name :: taken))

/-- The functions of a server for a catalog. -/
def functions (tools : List Tool) : Except ModelError (List Function) :=
  functionsFrom (Catalog.index tools).values []

end Emission

end ApiTools
