import ApiTools.Document.Basic
import ApiTools.Logged
import ApiTools.Spec.Normal
import ApiTools.Validation.Lenient

/-!
# Reading documents

A document model is read from a decoded document whose local references have been inlined.
Fields are read leniently; a field with an alias is read under the alias if that is present.
Operations are checked one by one, then the parameters that a path item shares, last the
document itself; the first of these that does not fit is reported with all of its issues.
-/

namespace ApiTools

/-- Why a decoded document has no model. -/
inductive DocumentError where
  /-- Something that has to be an object is of another kind. -/
  | objectExpected
  /-- Something cannot be listed, or cannot be told apart by its name and place. -/
  | unusable
  | invalidOperation (method path : Text) (issues : List Issue)
  | invalidSharedParameter (issues : List Issue)
  | invalidDocument (issues : List Issue)
deriving DecidableEq

/-- The report of a document without a model. -/
def DocumentError.message : DocumentError → Text
  | .objectExpected => "expected an object"
  | .unusable => "expected a list of named parameters"
  | .invalidOperation method path _ =>
    "invalid operation " ++ method ++ " " ++ path ++ ": validation error"
  | .invalidSharedParameter _ => "validation error"
  | .invalidDocument _ => "invalid OpenAPI document: validation error"

/-- The issues behind a report. -/
def DocumentError.issues : DocumentError → Option (List Issue)
  | .invalidOperation _ _ issues => some issues
  | .invalidSharedParameter issues => some issues
  | .invalidDocument issues => some issues
  | _ => none

namespace Document

variable {α : Type}

/-- The value of the first of some names that is present, with that name. -/
def present? (fields : Fields Json) : (names : List Text) → Option (Text × Json)
  | [] => none
  | name :: rest =>
    match fields.get? name with
    | some v => some (name, v)
    | none => present? fields rest

/-- A field that has to be there under one of its names. -/
def required (fields : Fields Json) (name : Text) (others : List Text)
    (read : Json → Checked α) : Checked α :=
  match present? fields (name :: others) with
  | some (key, v) => Checked.under (.field key) (read v)
  | none => .error [⟨[.field name], .missing⟩]

/-- A field that may be left out. -/
def field (fields : Fields Json) (names : List Text) (default : α)
    (read : Json → Checked α) : Checked α :=
  match present? fields names with
  | some (key, v) => Checked.under (.field key) (read v)
  | none => .ok default

/-- A text. -/
def readText (v : Json) : Checked Text := Lenient.checked (Lenient.text v)

/-- A truth value. -/
def readBool (v : Json) : Checked Bool := Lenient.checked (Lenient.bool v)

/-- An object, read as a model. The names of all its fields have to be such that they can be
written, also of those that it has no place for. -/
def readObject (read : Fields Json → Checked α) : Json → Checked α
  | .object fields =>
    if Fields.hasSurrogateName fields then Checked.refuse .stringUnicode else read fields
  | _ => Checked.refuse .modelType

/-- A list of values. -/
def readList (read : Json → Checked α) : Json → Checked (List α)
  | .array items => Checked.all (fun i _ ↦ .index i) read 0 items
  | _ => Checked.refuse .listType

/-- Named values. -/
def readFields (read : Json → Checked α) : Json → Checked (Fields α)
  | .object fields =>
    Checked.all (fun _ f ↦ .field f.1) (fun f ↦ (f.1, ·) <$> read f.2) 0 fields
  | _ => Checked.refuse .dictType

/-- Any list. -/
def readItems : Json → Checked (List Json)
  | .array items => .ok items
  | _ => Checked.refuse .listType

/-- Any object. -/
def readAnyFields : Json → Checked (Fields Json)
  | .object fields => .ok fields
  | _ => Checked.refuse .dictType

/-- Reading side by side: a function applied to one more part. -/
def also {β : Type} (f : Checked (α → β)) (part : Checked α) : Checked β :=
  Checked.both (fun g a ↦ g a) f part

/-- A schema. -/
def readSchema : Json → Checked Schema :=
  readObject fun fields ↦
    also (also (.ok fun enum ref ↦ ⟨(fields.get? "type").getD .null, enum, ref⟩)
      (field fields ["enum"] none (Lenient.optional readItems)))
      (field fields ["$ref", "ref"] none (Lenient.optional readText))

/-- A parameter. -/
def readParameter : Json → Checked Parameter :=
  readObject fun fields ↦
    also (also (also (also (also (.ok Parameter.mk)
      (required fields "name" [] readText))
      (required fields "in" ["location"] readText))
      (field fields ["required"] false readBool))
      (field fields ["description"] none (Lenient.optional readText)))
      (field fields ["schema", "param_schema"] none (Lenient.optional readSchema))

/-- A form of a body. -/
def readMediaType : Json → Checked MediaType :=
  readObject fun fields ↦
    MediaType.mk <$> field fields ["schema", "media_schema"] none (Lenient.optional readSchema)

/-- A request body. -/
def readRequestBody : Json → Checked RequestBody :=
  readObject fun fields ↦
    also (also (also (.ok RequestBody.mk)
      (field fields ["description"] none (Lenient.optional readText)))
      (field fields ["required"] false readBool))
      (field fields ["content"] [] (readFields (Lenient.optional readMediaType)))

/-- An operation whose parameters have been merged. -/
def readOperation : Json → Checked Operation :=
  readObject fun fields ↦
    also (also (also (also (also (also (.ok Operation.mk)
      (field fields ["operationId", "operation_id"] none (Lenient.optional readText)))
      (field fields ["summary"] none (Lenient.optional readText)))
      (field fields ["description"] none (Lenient.optional readText)))
      (field fields ["tags"] [] (readList readText)))
      (field fields ["parameters"] [] (readList readParameter)))
      (field fields ["requestBody", "request_body"] none (Lenient.optional readRequestBody))

/-- What a document calls itself. -/
def readInfo : Json → Checked Info :=
  readObject fun fields ↦
    also (also (also (.ok Info.mk)
      (field fields ["title"] [] readText))
      (field fields ["version"] [] readText))
      (field fields ["description"] none (Lenient.optional readText))

/-- A server. -/
def readServer : Json → Checked Server :=
  readObject fun fields ↦
    also (also (.ok Server.mk)
      (required fields "url" [] readText))
      (field fields ["variables"] [] (readFields readAnyFields))

/-- A value that is there, or a default for one that is blank. -/
def orElse (v default : Json) : Json := if v.isBlank then default else v

/-- What can be gone through one by one: the items of a list, the names of an object or the
characters of a text. -/
def listed? : Json → Option (List Json)
  | .array items => some items
  | .object fields => some ((Fields.names fields).map Value.string)
  | .string t => some (t.map fun c ↦ .string [c])
  | _ => none

/-- Is an entry of a parameter list a parameter, having a name and a place? -/
def isParameter : Json → Bool
  | .object fields => Fields.has fields "name" && Fields.has fields "in"
  | _ => false

/-- The parameters among some entries; the others are warned about. -/
def keepParameters : List Json → Logged DocumentError (List Json)
  | [] => pure []
  | entry :: rest =>
    if isParameter entry then do return entry :: (← keepParameters rest)
    else do
      Logged.warn ("Skipping unresolved parameter: " ++ Literal.shown entry.lift)
      keepParameters rest

/-- The parameters of a list that may be missing. -/
def parameterEntries (raw : Json) : Logged DocumentError (List Json) :=
  if raw.isBlank then pure []
  else
    match listed? raw with
    | some entries => keepParameters entries
    | none => Logged.fail .unusable

/-- A leaf as it is told apart: numbers by what they count, truth values as zero and one. Lists
and objects cannot be told apart. -/
def leafKey? : Json → Option Json
  | .bool b => some (.int (if b then 1 else 0))
  | .float x => some (match x.toInt? with
    | some i => .int i
    | none => .float x)
  | .array _ => none
  | .object _ => none
  | v => some v

/-- Name and place of a parameter, which tell it apart from others. -/
def parameterKey? (entry : Json) : Option (Json × Json) := do
  return (← leafKey? (entry.fieldOrNull "name"), ← leafKey? (entry.fieldOrNull "in"))

/-- Are two keys the same? An undefined number is the same as nothing. -/
def sameKey (k l : Json × Json) : Bool :=
  k == l && k.1 != .float .nan && k.2 != .float .nan

/-- The shared parameters that an operation does not override, then its own. -/
def mergeParameters (shared own : List Json) : Logged DocumentError (List Json) :=
  match own.mapM parameterKey?, shared.mapM parameterKey? with
  | some overriding, some keys =>
    let kept := (shared.zip keys).filter fun (_, key) ↦ !overriding.any (sameKey key)
    pure (kept.map (·.1) ++ own)
  | _, _ => Logged.fail .unusable

/-- The content of a body: media types that are no objects have no form. -/
def contentEntries (raw : Json) : Except DocumentError (Fields Json) :=
  if raw.isBlank then .ok []
  else
    match raw with
    | .object content => .ok (Fields.mapValues (fun media ↦
        match media with
        | .object fields => .object fields
        | _ => .null) content)
    | _ => .error .objectExpected

/-- The body of an operation; a reference that was left in place stands for none. -/
def bodyEntry : Json → Except DocumentError Json
  | .object fields =>
    if Fields.has fields "$ref" then .ok .null
    else do
      let content ← contentEntries ((Fields.get? fields "content").getD .null)
      return .object (Fields.set fields "content" (.object content))
  | _ => .ok .null

/-- An operation of a path item with the parameters that it shares. -/
def buildOperation (path key : Text) (shared : List Json) (raw : Fields Json) :
    Logged DocumentError Operation := do
  let own ← parameterEntries ((raw.get? "parameters").getD .null)
  let merged ← mergeParameters shared own
  let body ← Logged.ofExcept (bodyEntry ((raw.get? "requestBody").getD .null))
  let fields := (raw.set "parameters" (.array merged)).set "requestBody" body
  match readOperation (.object fields) with
  | .ok operation => pure operation
  | .error issues => Logged.fail (.invalidOperation key.toUpper path issues)

/-- The operations of a path item, by method in upper case; of keys that differ in letter case
alone the last one gives the operation and the first one the place. -/
def buildOperations (path : Text) (shared : List Json) :
    Fields Json → Fields Operation → Logged DocumentError (Fields Operation)
  | [], operations => pure operations
  | (key, v) :: rest, operations =>
    match Spec.isMethod key, v with
    | true, .object raw => do
      let operation ← buildOperation path key shared raw
      buildOperations path shared rest (operations.set key.toUpper operation)
    | _, _ => buildOperations path shared rest operations

/-- The shared parameters of a path item, checked one by one. -/
def buildShared : List Json → Logged DocumentError (List Parameter)
  | [] => pure []
  | entry :: rest =>
    match readParameter entry with
    | .ok p => do return p :: (← buildShared rest)
    | .error issues => Logged.fail (.invalidSharedParameter issues)

/-- A path item. -/
def buildPathItem (path : Text) (item : Fields Json) : Logged DocumentError PathItem := do
  let shared ← parameterEntries ((item.get? "parameters").getD .null)
  let operations ← buildOperations path shared item []
  let parameters ← buildShared shared
  return ⟨parameters, operations⟩

/-- The path items of a document; what is no object is passed over. -/
def buildPaths : Fields Json → Logged DocumentError (Fields PathItem)
  | [] => pure []
  | (path, .object item) :: rest => do
    let pathItem ← buildPathItem path item
    return (path, pathItem) :: (← buildPaths rest)
  | _ :: rest => buildPaths rest

/-- The rest of a document, given its path items. -/
def readDocument (spec : Fields Json) (paths : Fields PathItem) : Checked Document :=
  let at? (name : Text) : Json := (spec.get? name).getD .null
  also (also (also (also
    (.ok fun version info servers components ↦ ⟨version, info, servers, paths, components⟩)
    (Checked.under (.field "openapi") (readText (at? "openapi"))))
    (Checked.under (.field "info") (readInfo (orElse (at? "info") (.object [])))))
    (Checked.under (.field "servers")
      (readList readServer (orElse (at? "servers") (.array [])))))
    (Checked.under (.field "components")
      (readAnyFields (orElse (at? "components") (.object []))))

/-- The model of a decoded document. -/
def ofSpec (spec : Json) : Logged DocumentError Document :=
  match spec with
  | .object fields =>
    match orElse ((Fields.get? fields "paths").getD .null) (.object []) with
    | .object items => do
      let paths ← buildPaths items
      match readDocument fields paths with
      | .ok document => pure document
      | .error issues => Logged.fail (.invalidDocument issues)
    | _ => Logged.fail .objectExpected
  | _ => Logged.fail .objectExpected

end Document

end ApiTools
