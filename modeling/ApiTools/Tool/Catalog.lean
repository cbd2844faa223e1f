import ApiTools.Document.Basic
import ApiTools.Logged
import ApiTools.Tool.Identifier

/-!
# Catalogs

The catalog of a document has one tool for each operation, in the order of the document.
Operations may get the same identifier: the catalog keeps them all, and its index keeps the
last one. A strict catalog refuses them.
-/

namespace ApiTools

/-- Operations of a document got the same identifier. -/
structure CollisionError where
  groups : Fields (List Tool)
deriving DecidableEq

namespace Catalog

open Document (Operation RequestBody MediaType Schema)

/-- The type of a parameter: the one its schema names, if that is a primitive one. -/
def primitiveType (schema : Option Schema) : Text :=
  match schema with
  | some ⟨.string name, _, _⟩ => if name ∈ primitiveTypes then name else "string"
  | _ => "string"

/-- The texts of an enumeration; one that holds none is none. -/
def enumTexts (values : List Json) : Option (List Text) :=
  match values.filterMap Value.text? with
  | [] => none
  | texts => some texts

/-- The texts that a schema restricts its values to. -/
def stringEnum (schema : Option Schema) : Option (List Text) :=
  match schema with
  | some ⟨.string name, some values, _⟩ =>
    if name = "string" then enumTexts values else none
  | _ => none

/-- The places that a tool's parameters can fill. -/
def knownLocations : List Text := [Location.path, Location.query, Location.header]

/-- The parameter of a tool for a declared one, unless it goes to a place that tools do not
fill. -/
def parameter? (declared : Document.Parameter) : Option Parameter :=
  if declared.location ∈ knownLocations then
    some {
      name := declared.name
      sanitizedName := Identifier.sanitize declared.name
      location := declared.location
      required := declared.required
      primitiveType := primitiveType declared.schema
      enumValues := stringEnum declared.schema
      description := declared.description }
  else none

/-- A text that is there and not empty. -/
def nonEmpty? : Option Text → Option Text
  | some [] => none
  | t => t

/-- Is a body described by a schema in one of its forms? -/
def hasSchema (body : RequestBody) : Bool :=
  body.content.values.any fun media ↦
    match media with
    | some ⟨some _⟩ => true
    | _ => false

/-- The body of an operation if it takes one: whether it is required, and its description. -/
def body? (operation : Operation) : Option (Bool × Text) :=
  match operation.requestBody with
  | some body =>
    if hasSchema body then
      some (body.required, (nonEmpty? body.description).getD "Request body")
    else none
  | none => none

/-- The tool for an operation: required parameters first, otherwise in order. -/
def tool (path method : Text) (operation : Operation) : Tool :=
  let parameters := operation.parameters.filterMap parameter?
  let body := body? operation
  { id := Identifier.ofOperation path method
    description := ((nonEmpty? operation.summary).or (nonEmpty? operation.description)).getD
      (method ++ " " ++ path)
    path := path
    method := method
    parameters := parameters.filter (·.required) ++ parameters.filter (!·.required)
    hasBody := body.isSome
    bodyRequired := (body.map (·.1)).getD false
    bodyDescription := body.map (·.2) }

/-- The tools for the operations of a document, in order. -/
def ofDocument (document : Document) : List Tool :=
  document.paths.flatMap fun (path, item) ↦
    item.operations.map fun (method, operation) ↦ tool path method.toUpper operation

/-- The tools with each identifier, identifiers and tools in order. -/
def groups (tools : List Tool) : Fields (List Tool) :=
  tools.foldl (fun all tool ↦ all.set tool.id ((all.get? tool.id).getD [] ++ [tool])) []

/-- The groups of more than one tool. -/
def collisions (tools : List Tool) : Fields (List Tool) :=
  (groups tools).filter fun g ↦ 1 < g.2.length

/-- The last tool with each identifier, in the order in which the identifiers first occur. -/
def index (tools : List Tool) : Fields Tool := Fields.ofList (tools.map fun t ↦ (t.id, t))

/-- The names that occur more than once in a list, in the order of their first occurrences. -/
def repeated (names : List Text) : List Text :=
  let firsts : Fields Unit := Fields.ofList (names.map (·, ()))
  firsts.names.filter fun name ↦ 1 < names.count name

/-- The names that several parameters of a tool are sanitized to. -/
def repeatedParameters (tool : Tool) : List Text := repeated (tool.parameters.map (·.sanitizedName))

/-- One group in the report of a collision. -/
def groupText (group : Text × List Tool) : Text :=
  group.1 ++ " (" ++ Text.join ", " (group.2.map Tool.operation) ++ ")"

/-- The warning about a group of tools with one identifier. -/
def collisionWarning (group : Text × List Tool) : Text :=
  "Tool id " ++ group.1 ++ " derived by " ++ Text.ofNat group.2.length
    ++ " operations; the last one wins: " ++ Literal.texts (group.2.map Tool.operation)

/-- The warning about the parameters of a tool, if several have one name. -/
def parameterWarning? (tool : Tool) : Option Text :=
  match repeatedParameters tool with
  | [] => none
  | names => some ("Tool " ++ tool.id ++ " has parameters sharing sanitized names: "
      ++ Literal.texts names)

/-- The catalog of a document, with warnings about names that are not unique. A strict catalog
has no two tools with one identifier. -/
def build (strict : Bool) (document : Document) : Logged CollisionError (List Tool) :=
  let tools := ofDocument document
  let collisions := collisions tools
  if strict ∧ collisions ≠ [] then Logged.fail ⟨collisions⟩
  else ⟨collisions.map collisionWarning ++ tools.filterMap parameterWarning?, .ok tools⟩

end Catalog

/-- The report of a collision. -/
def CollisionError.message (e : CollisionError) : Text :=
  "duplicate tool identifiers: " ++ Text.join ", " (e.groups.map Catalog.groupText)

end ApiTools
