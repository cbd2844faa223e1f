import ApiTools.Encoding.Utf8
import ApiTools.Json.Reader
import ApiTools.Json.Writer
import ApiTools.Schema.Repair
import ApiTools.Text.Case

/-!
# Normal documents

A document written for version 3.1 is brought into the form of version 3.0 as far as structure
goes: its version field, the null unions of its component schemas and parameter schemas, and
the fields that no version knows. Nothing else is touched.
-/

namespace ApiTools

namespace Spec

/-- The methods an operation can have. -/
def methods : List Text :=
  ["get", "put", "post", "delete", "options", "head", "patch", "trace"]

/-- Does a key of a path item name an operation? Its letter case does not matter. -/
def isMethod (key : Text) : Bool := key.toLower ∈ methods

/-- An object's fields changed; any other value is kept. -/
def onObject (f : Fields Json → Fields Json) : Json → Json
  | .object fields => .object (f fields)
  | v => v

/-- An array's items changed; any other value is kept. -/
def onItems (f : Json → Json) : Json → Json
  | .array items => .array (items.map f)
  | v => v

/-- A version that starts with 3.1 becomes 3.0.0. -/
def normalVersion : Json → Json
  | .string version => if Text.startsWith version "3.1" then .string "3.0.0" else .string version
  | v => v

/-- A component schema in normal form: null unions first, then unknown fields. -/
def normalSchema : Json → Json :=
  onObject fun node ↦ Schema.nonStandard.everywhere (Schema.nullUnions.everywhere node)

/-- A parameter in normal form: only the top node of its schema is looked at. -/
def normalParameter : Json → Json :=
  onObject fun parameter ↦ parameter.adjust "schema" (onObject Schema.liftNullUnion)

/-- The components in normal form: schemas through and through, parameters at the top. -/
def normalComponents : Json → Json :=
  onObject fun components ↦
    (components.adjust "schemas" (onObject (Fields.mapValues normalSchema))).adjust
      "parameters" (onObject (Fields.mapValues normalParameter))

/-- An operation in normal form. -/
def normalOperation : Json → Json :=
  onObject fun operation ↦ operation.adjust "parameters" (onItems normalParameter)

/-- A path item in normal form: its own parameters and those of its operations. -/
def normalPathItem : Json → Json :=
  onObject fun item ↦
    (item.adjust "parameters" (onItems normalParameter)).map fun (key, v) ↦
      (key, if isMethod key then normalOperation v else v)

/-- A document in normal form. -/
def normalTree (spec : Fields Json) : Fields Json :=
  ((spec.adjust "openapi" normalVersion).adjust "components" normalComponents).adjust
    "paths" (onObject (Fields.mapValues normalPathItem))

/-- Why bytes have no normal form. -/
inductive NormalError where
  /-- The bytes are no JSON document. -/
  | undecodable
  /-- The document is no object but a value of another kind. -/
  | notObject (kind : Text)
  /-- The document holds half of a surrogate pair, which cannot be written. -/
  | unencodable (text : Text)
deriving DecidableEq

/-- The report of bytes that are no document. -/
def NormalError.message : NormalError → Text
  | .undecodable => "error decoding OpenAPI document: "
  | .notObject kind => "error decoding OpenAPI document: expected a JSON object, got " ++ kind
  | .unencodable text => Encoding.surrogateReport text

/-- The name of a value's kind in reports. -/
def kindName : Json → Text
  | .null => "NoneType"
  | .bool _ => "bool"
  | .int _ => "int"
  | .float _ => "float"
  | .string _ => "str"
  | .array _ => "list"
  | .object _ => "dict"
  | .other e => nomatch e

/-- The compact text of a document in normal form. -/
def normalText (bytes : Bytes) : Except NormalError Text :=
  match Json.decode? bytes with
  | none => .error .undecodable
  | some (.object spec) => .ok (Json.write .compact (.object (normalTree spec)))
  | some v => .error (.notObject (kindName v))

/-- The bytes of a document in normal form. -/
def normalize (bytes : Bytes) : Except NormalError Bytes := do
  let text ← normalText bytes
  match Encoding.encodeUtf8? text with
  | some encoded => .ok encoded
  | none => .error (.unencodable text)

end Spec

end ApiTools
