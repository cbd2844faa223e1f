import ApiTools.Tool.Basic

/-!
# Tools as records

A tool is written as a JSON object with every field present. Reading such an object back
demands the fields that have no default and refuses unknown ones.
-/

namespace ApiTools

/-- A record does not have the fields of a tool. -/
inductive RecordError where
  | wrongFields
deriving DecidableEq

namespace Parameter

/-- An optional text, null when it is missing. -/
def optionalText : Option Text → Json
  | some t => .string t
  | none => .null

/-- The record of a parameter. -/
def toRecord (p : Parameter) : Json :=
  .object [("name", .string p.name), ("sanitized_name", .string p.sanitizedName),
    ("location", .string p.location), ("required", .bool p.required),
    ("primitive_type", .string p.primitiveType),
    ("enum_values", match p.enumValues with
      | some values => .array (values.map Value.string)
      | none => .null),
    ("description", optionalText p.description)]

/-- The names that a parameter's record may hold. -/
def recordNames : List Text :=
  ["name", "sanitized_name", "location", "required", "primitive_type", "enum_values",
    "description"]

/-- A text that a record must hold. -/
def requiredText (fields : Fields Json) (name : Text) : Except RecordError Text :=
  match fields.get? name with
  | some (.string t) => .ok t
  | _ => .error .wrongFields

/-- A text that a record may leave out. -/
def textOr (fields : Fields Json) (name default : Text) : Except RecordError Text :=
  match fields.get? name with
  | some (.string t) => .ok t
  | none => .ok default
  | _ => .error .wrongFields

/-- A text that a record may leave out or hold as null. -/
def optionalText? (fields : Fields Json) (name : Text) : Except RecordError (Option Text) :=
  match fields.get? name with
  | some (.string t) => .ok (some t)
  | some .null => .ok none
  | none => .ok none
  | _ => .error .wrongFields

/-- A truth value that a record may leave out. -/
def flag (fields : Fields Json) (name : Text) : Except RecordError Bool :=
  match fields.get? name with
  | some (.bool b) => .ok b
  | none => .ok false
  | _ => .error .wrongFields

/-- The texts of a list that holds nothing else. -/
def texts? : List Json → Except RecordError (List Text)
  | [] => .ok []
  | .string t :: rest => do return t :: (← texts? rest)
  | _ :: _ => .error .wrongFields

/-- A list of texts that a record may leave out or hold as null. -/
def optionalTexts? (fields : Fields Json) (name : Text) :
    Except RecordError (Option (List Text)) :=
  match fields.get? name with
  | some (.array items) => do return some (← texts? items)
  | some .null => .ok none
  | none => .ok none
  | _ => .error .wrongFields

/-- The parameter that a record describes. -/
def ofRecord : Json → Except RecordError Parameter
  | .object fields =>
    if (Fields.names fields).all fun n ↦ n ∈ recordNames then do
      return {
        name := ← requiredText fields "name"
        sanitizedName := ← requiredText fields "sanitized_name"
        location := ← requiredText fields "location"
        required := ← flag fields "required"
        primitiveType := ← textOr fields "primitive_type" "string"
        enumValues := ← optionalTexts? fields "enum_values"
        description := ← optionalText? fields "description" }
    else .error .wrongFields
  | _ => .error .wrongFields

end Parameter

namespace Tool

open Parameter (optionalText requiredText optionalText? flag)

/-- The record of a tool. -/
def toRecord (tool : Tool) : Json :=
  .object [("tool_id", .string tool.id), ("description", .string tool.description),
    ("path", .string tool.path), ("method", .string tool.method),
    ("parameters", .array (tool.parameters.map Parameter.toRecord)),
    ("has_body", .bool tool.hasBody), ("body_required", .bool tool.bodyRequired),
    ("body_description", optionalText tool.bodyDescription)]

/-- The names that a tool's record may hold. -/
def recordNames : List Text :=
  ["tool_id", "description", "path", "method", "parameters", "has_body", "body_required",
    "body_description"]

/-- The parameters of a record; everything empty stands for none. -/
def parametersOfRecord (fields : Fields Json) : Except RecordError (List Parameter) :=
  match fields.get? "parameters" with
  | none => .ok []
  | some (.array items) => items.mapM Parameter.ofRecord
  | some (.object []) => .ok []
  | some (.string []) => .ok []
  | _ => .error .wrongFields

/-- The tool that a record describes. -/
def ofRecord : Json → Except RecordError Tool
  | .object fields =>
    if (Fields.names fields).all fun n ↦ n ∈ recordNames then do
      return {
        id := ← requiredText fields "tool_id"
        description := ← requiredText fields "description"
        path := ← requiredText fields "path"
        method := ← requiredText fields "method"
        parameters := ← parametersOfRecord fields
        hasBody := ← flag fields "has_body"
        bodyRequired := ← flag fields "body_required"
        bodyDescription := ← optionalText? fields "body_description" }
    else .error .wrongFields
  | _ => .error .wrongFields

end Tool

end ApiTools
