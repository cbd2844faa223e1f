import ApiTools.Acceptance.Consistency
import ApiTools.Document.Read
import ApiTools.Spec.Reference
import ApiTools.Spec.Version

/-!
# From bytes to documents

A document is read in steps: its bytes are brought into normal form, its version is looked at,
local references are inlined, the whole is held against the format, and the model is built.
Each step has its own ways to fail.
-/

namespace ApiTools

/-- Why bytes are not a document. -/
inductive LoadError where
  | normal (e : Spec.NormalError)
  /-- The version, or what an older format has in its place, is not one of the third. -/
  | unsupportedVersion (shown : Text)
  /-- A reference points at nothing, or the document is not in the format. -/
  | rejected
  | references (e : ReferenceError)
  /-- The version is no version at all. -/
  | malformedVersion (version : Text)
  | acceptance (r : Acceptance.Rejection)
  | document (e : DocumentError)
deriving DecidableEq

/-- The report of bytes that are not a document. -/
def LoadError.message : LoadError → Text
  | .normal e => e.message
  | .unsupportedVersion shown => "unsupported OpenAPI version: " ++ shown
  | .rejected => "OpenAPI documentation validation failed: "
  | .references _ => "a reference cannot be replaced"
  | .malformedVersion version => "Invalid version: '" ++ version ++ "'"
  | .acceptance r => r.message
  | .document e => e.message

namespace Document

/-- The text of a number that JSON has no notation for. -/
def constantText? (x : Double) : Option Text :=
  if x.isFinite then none else some (x.render Double.jsonLayout)

mutual

/-- A value with the numbers that JSON has no notation for as texts. -/
def withoutConstants : Json → Json
  | .float x =>
    match constantText? x with
    | some t => .string t
    | none => .float x
  | .array items => .array (withoutConstantItems items)
  | .object fields => .object (withoutConstantFields fields)
  | v => v

/-- The same for the values of a list. -/
def withoutConstantItems : List Json → List Json
  | [] => []
  | v :: rest => withoutConstants v :: withoutConstantItems rest

/-- The same for the values of some fields. -/
def withoutConstantFields : List (Text × Json) → List (Text × Json)
  | [] => []
  | (name, v) :: rest => (name, withoutConstants v) :: withoutConstantFields rest

end

/-- The value that says which version a document is of. -/
def versionValue (spec : Fields Json) : Json :=
  let version := (spec.get? "openapi").getD .null
  if version.isBlank then (spec.get? "swagger").getD .null else version

/-- Is a document of the third version? -/
def isSupported (spec : Fields Json) : Bool :=
  match spec.get? "openapi" with
  | some (.string version) => version.startsWith "3."
  | _ => false

/-- A document in the format, with its references inlined. -/
def accepted (spec : Fields Json) : Except LoadError Json :=
  match Spec.inlineReferences (withoutConstants (.object spec)) with
  | .error .dangling => .error .rejected
  | .error e => .error (.references e)
  | .ok inlined =>
    match inlined.field? "openapi" with
    | some (.string version) =>
      if Spec.isVersion version then
        match Acceptance.accept inlined with
        | .ok () => .ok inlined
        | .error .inconsistent => .error .rejected
        | .error r => .error (.acceptance r)
      else .error (.malformedVersion version)
    | _ => .error .rejected

/-- The document that bytes hold. -/
def parse (bytes : Bytes) : Logged LoadError Document :=
  match Spec.normalText bytes with
  | .error e => Logged.fail (.normal e)
  | .ok text =>
    if text.all fun c ↦ !c.isSurrogate then
      match Json.parse? text (some Text.digitLimit) with
      | some (.object spec) =>
        if isSupported spec then do
          let inlined ← Logged.ofExcept (accepted spec)
          (ofSpec inlined).mapError .document
        else
          Logged.fail (.unsupportedVersion (Literal.value (versionValue spec).lift))
      | _ => Logged.fail (.normal .undecodable)
    else Logged.fail (.normal (.unencodable text))

end Document

end ApiTools
