import ApiTools.Acceptance.Shape
import ApiTools.Text.Numeral
import ApiTools.Text.Pattern

/-!
# The grammar of documents

The shapes of version 3.0 of the document format. Objects hold the fields that the format names
and extensions, whose names start with `x-`; where the format leaves an object open, any other
field is let through.
-/

namespace ApiTools

namespace Acceptance

namespace Shape

/-- Any text. -/
def string : Shape := .text fun _ ↦ true

/-- One of some texts. -/
def choice (texts : List Text) : Shape := .text fun t ↦ decide (t ∈ texts)

/-- Any truth value. -/
def boolean : Shape := .flag fun _ ↦ true

/-- Any number. -/
def anyNumber : Shape := .number fun _ ↦ true

/-- A list without conditions. -/
def listOf (item : Shape) : Shape := .list item fun _ ↦ true

/-- Is a name that of an extension? -/
def isExtension (name : Text) : Bool := name.startsWith "x-"

/-- Are some fields there? -/
def has (required : List Text) (fields : Fields Json) : Bool := required.all fields.has

/-- Fields under the texts of their names. -/
def named (fields : List (String × Shape)) : List (Text × Shape) :=
  fields.map fun (name, shape) ↦ (Text.ofString name, shape)

/-- An object with some fields and extensions. -/
def closed (required : List Text) (fields : List (String × Shape))
    (allowed : Fields Json → Bool := fun _ ↦ true) : Shape :=
  .object (named fields) [(isExtension, .any)] none fun present ↦
    has required present && allowed present

/-- An object whose fields all have one shape. -/
def mapOf (value : Shape) : Shape := .object [] [] (some value) fun _ ↦ true

/-- A part of the format, or a reference to one. -/
def orReference (p : Part) : Shape := .oneOf [.part p, .part .reference]

end Shape

open Shape (string choice boolean anyNumber listOf closed mapOf orReference has isExtension)

/-- Is a name one that a component can have: ASCII letters, digits, points, hyphens and
underscores? -/
def isComponentName (name : Text) : Bool :=
  (Pattern.oneOrMore (Pattern.one fun c ↦ c.isAsciiWord || c == '.' || c == '-')).takesLine name

/-- Components of one kind, by name; a name that no component can have is passed over. -/
def componentMap (p : Part) : Shape :=
  .object [] [(isComponentName, orReference p)] (some .any) fun _ ↦ true

/-- Is a text the version of a document of version 3.0? -/
def isVersion (t : Text) : Bool :=
  Pattern.takesLine (Pattern.inOrder [Pattern.word "3.0.", Pattern.one CodePoint.isDecimal,
    Pattern.maybe (Pattern.seq (Pattern.word "-")
      (Pattern.oneOrMore (Pattern.one fun c ↦ c != CodePoint.ofChar '\n')))]) t

/-- Is a text a status code or a range of them? -/
def isStatus (t : Text) : Bool :=
  Pattern.takesLine (Pattern.seq (Pattern.one fun c ↦ 0x31 ≤ c.val && c.val ≤ 0x35)
    (Pattern.oneOf [Pattern.word "XX",
      Pattern.seq (Pattern.one CodePoint.isDecimal) (Pattern.one CodePoint.isDecimal)])) t

/-- The scheme of authorization with a token, in any letter case. -/
def isBearer (t : Text) : Bool := (Pattern.caselessWord "bearer").takesLine t

/-- At most one of two fields is there. -/
def notBoth (a b : Text) (fields : Fields Json) : Bool := !(fields.has a && fields.has b)

/-- An example and examples exclude each other. -/
def exampleOrExamples : Fields Json → Bool := notBoth "example" "examples"

/-- Exactly one of a schema and a content is there, and a content excludes the fields that say
how a schema's values are written. -/
def schemaOrContent (fields : Fields Json) : Bool :=
  if fields.has "schema" then !fields.has "content"
  else fields.has "content" &&
    (["style", "explode", "allowReserved", "example", "examples"] : List Text).all fun n ↦
      !fields.has n

/-- Is a field, if it is there, one of some texts? -/
def fieldIn (fields : Fields Json) (name : Text) (texts : List Text) : Bool :=
  match fields.get? name with
  | some (.string t) => decide (t ∈ texts)
  | some _ => false
  | none => true

/-- A parameter says how its values are written in a way that its place allows, and in a path
it is required. -/
def locationAllowed (fields : Fields Json) : Bool :=
  let place (name : Text) (styles : List Text) : Bool :=
    fieldIn fields "in" [name] && fieldIn fields "style" styles
  [place "path" ["matrix", "label", "simple"] && fields.get? "required" == some (.bool true),
    place "query" ["form", "spaceDelimited", "pipeDelimited", "deepObject"],
    place "header" ["simple"],
    place "cookie" ["form"]].count true == 1

/-- The format of a token goes with its scheme alone. -/
def bearerFormatAllowed (fields : Fields Json) : Bool :=
  match fields.get? "scheme" with
  | some (.string scheme) => isBearer scheme || !fields.has "bearerFormat"
  | _ => false

/-- The fields that parameters and headers share. -/
def valueFields : List (String × Shape) :=
  [("description", string), ("required", boolean), ("deprecated", boolean), ("allowEmptyValue", boolean),
    ("explode", boolean), ("allowReserved", boolean), ("schema", orReference .schema),
    ("content", .object [] [] (some (.part .mediaType)) fun fields ↦ fields.length == 1),
    ("example", .any), ("examples", mapOf (orReference .example))]

/-- The fields of a schema. -/
def schemaFields : List (String × Shape) :=
  [("title", string), ("multipleOf", .number fun x ↦ x.isPositive), ("maximum", anyNumber),
    ("exclusiveMaximum", boolean), ("minimum", anyNumber), ("exclusiveMinimum", boolean),
    ("maxLength", .count), ("minLength", .count), ("pattern", string), ("maxItems", .count),
    ("minItems", .count), ("uniqueItems", boolean), ("maxProperties", .count),
    ("minProperties", .count),
    ("required", .list string fun items ↦ !items.isEmpty && Json.distinct items),
    ("enum", .list .any fun items ↦ !items.isEmpty),
    ("type", choice ["array", "boolean", "integer", "number", "object", "string"]),
    ("not", orReference .schema), ("allOf", listOf (orReference .schema)),
    ("oneOf", listOf (orReference .schema)), ("anyOf", listOf (orReference .schema)),
    ("items", orReference .schema), ("properties", mapOf (orReference .schema)),
    ("additionalProperties", .oneOf [.part .schema, .part .reference, boolean]),
    ("description", string), ("format", string), ("default", .any), ("nullable", boolean),
    ("discriminator", .part .discriminator), ("readOnly", boolean), ("writeOnly", boolean),
    ("example", .any), ("externalDocs", .part .externalDocs), ("deprecated", boolean),
    ("xml", .part .xml)]

/-- The fields of an operation. -/
def operationFields : List (String × Shape) :=
  [("tags", listOf string), ("summary", string), ("description", string),
    ("externalDocs", .part .externalDocs), ("operationId", string),
    ("parameters", .list (orReference .parameter) Json.distinct),
    ("requestBody", orReference .requestBody), ("responses", .part .responses),
    ("callbacks", mapOf (orReference .callback)), ("deprecated", boolean),
    ("security", listOf (.part .securityRequirement)), ("servers", listOf (.part .server))]

/-- The ways of authorization, which exclude each other. -/
def securitySchemes : List Shape :=
  [closed ["type", "name", "in"]
      [("type", choice ["apiKey"]), ("name", string), ("in", choice ["header", "query", "cookie"]),
        ("description", string)],
    closed ["scheme", "type"]
      [("type", choice ["http"]), ("scheme", string), ("bearerFormat", string),
        ("description", string)] bearerFormatAllowed,
    closed ["type", "flows"]
      [("type", choice ["oauth2"]), ("flows", .part .oauthFlows), ("description", string)],
    closed ["type", "openIdConnectUrl"]
      [("type", choice ["openIdConnect"]), ("openIdConnectUrl", string), ("description", string)]]

/-- The fields of a flow that ends with a token. -/
def flowFields : List (String × Shape) :=
  [("authorizationUrl", string), ("tokenUrl", string), ("refreshUrl", string),
    ("scopes", mapOf string)]

/-- The shape of each part. -/
def shapeOf : Part → Shape
  | .reference => .object [("$ref", string)] [] (some .any) (has ["$ref"])
  | .info =>
    closed ["title", "version"]
      [("title", string), ("description", string), ("termsOfService", string),
        ("contact", .part .contact), ("license", .part .license), ("version", string)]
  | .contact => closed [] [("name", string), ("url", string), ("email", string)]
  | .license => closed ["name"] [("name", string), ("url", string)]
  | .server =>
    closed ["url"]
      [("url", string), ("description", string), ("variables", mapOf (.part .serverVariable))]
  | .serverVariable =>
    closed ["default"]
      [("enum", listOf string), ("default", string), ("description", string)]
  | .components =>
    closed []
      [("schemas", componentMap .schema), ("responses", componentMap .response),
        ("parameters", componentMap .parameter), ("examples", componentMap .example),
        ("requestBodies", componentMap .requestBody), ("headers", componentMap .header),
        ("securitySchemes", componentMap .securityScheme), ("links", componentMap .link),
        ("callbacks", componentMap .callback)]
  | .schema => closed [] schemaFields
  | .discriminator =>
    .object [("propertyName", string), ("mapping", mapOf string)] [] (some .any)
      (has ["propertyName"])
  | .xml =>
    closed []
      [("name", string), ("namespace", string), ("prefix", string), ("attribute", boolean),
        ("wrapped", boolean)]
  | .response =>
    closed ["description"]
      [("description", string), ("headers", mapOf (orReference .header)),
        ("content", mapOf (.part .mediaType)), ("links", mapOf (orReference .link))]
  | .mediaType =>
    closed []
      [("schema", orReference .schema), ("example", .any),
        ("examples", mapOf (orReference .example)), ("encoding", mapOf (.part .encoding))]
      exampleOrExamples
  | .example =>
    closed []
      [("summary", string), ("description", string), ("value", .any), ("externalValue", string)]
  | .header =>
    closed [] (("style", choice ["simple"]) :: valueFields) fun fields ↦
      exampleOrExamples fields && schemaOrContent fields
  | .parameter =>
    closed ["name", "in"] ([("name", string), ("in", string), ("style", string)] ++ valueFields)
      fun fields ↦ exampleOrExamples fields && schemaOrContent fields && locationAllowed fields
  | .pathItem =>
    closed []
      ([("$ref", string), ("summary", string), ("description", string),
        ("servers", listOf (.part .server)),
        ("parameters", .list (orReference .parameter) Json.distinct)]
        ++ ["get", "put", "post", "delete", "options", "head", "patch", "trace"].map fun m ↦
          (m, .part .operation))
  | .operation => closed ["responses"] operationFields
  | .responses =>
    .object [("default", orReference .response)]
      [(isStatus, orReference .response), (isExtension, .any)] none fun fields ↦ !fields.isEmpty
  | .securityRequirement => mapOf (listOf string)
  | .tag =>
    closed ["name"]
      [("name", string), ("description", string), ("externalDocs", .part .externalDocs)]
  | .externalDocs => closed ["url"] [("description", string), ("url", string)]
  | .requestBody =>
    closed ["content"]
      [("description", string), ("content", mapOf (.part .mediaType)), ("required", boolean)]
  | .securityScheme => .oneOf securitySchemes
  | .oauthFlows =>
    closed []
      [("implicit", .part .implicitFlow), ("password", .part .tokenFlow),
        ("clientCredentials", .part .tokenFlow), ("authorizationCode", .part .codeFlow)]
  | .implicitFlow => closed ["authorizationUrl", "scopes"] (flowFields.filter (·.1 ≠ "tokenUrl"))
  | .tokenFlow => closed ["tokenUrl", "scopes"] (flowFields.filter (·.1 ≠ "authorizationUrl"))
  | .codeFlow => closed ["authorizationUrl", "tokenUrl", "scopes"] flowFields
  | .link =>
    closed []
      [("operationId", string), ("operationRef", string), ("parameters", mapOf .any),
        ("requestBody", .any), ("description", string), ("server", .part .server)]
      (notBoth "operationId" "operationRef")
  | .callback => .object [] [(isExtension, .any)] (some (.part .pathItem)) fun _ ↦ true
  | .encoding =>
    closed []
      [("contentType", string), ("headers", mapOf (orReference .header)),
        ("style", choice ["form", "spaceDelimited", "pipeDelimited", "deepObject"]),
        ("explode", boolean), ("allowReserved", boolean)]

/-- The shape of a whole document. -/
def documentShape : Shape :=
  closed ["openapi", "info", "paths"]
    [("openapi", .text isVersion), ("info", .part .info), ("externalDocs", .part .externalDocs),
      ("servers", listOf (.part .server)), ("security", listOf (.part .securityRequirement)),
      ("tags", .list (.part .tag) Json.distinct),
      ("paths", .object [] [(fun path ↦ path.startsWith "/", .part .pathItem),
        (isExtension, .any)] none fun _ ↦ true),
      ("components", .part .components)]

/-- Does a document have the shape that the format demands? -/
def isWellFormed (document : Json) : Bool :=
  fits shapeOf (stepBound document) documentShape document

end Acceptance

end ApiTools
