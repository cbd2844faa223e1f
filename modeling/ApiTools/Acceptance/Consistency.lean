import ApiTools.Acceptance.Grammar
import ApiTools.Acceptance.Instance
import ApiTools.Acceptance.Template
import ApiTools.Spec.Normal
import ApiTools.Spec.Reference

/-!
# Consistent documents

What the parts of a document demand of each other: operation identifiers are unique, so are the
names and places of the parameters in a list, every field of a path is declared as a parameter,
required properties are declared, and defaults are instances of their schemas.

The parts are looked at in the order of the document, and the first that is wrong decides.
Extensions among the paths count as path items here.
-/

namespace ApiTools

namespace Acceptance

/-- Why a document is turned down. -/
inductive Rejection where
  /-- It does not have the shape of a document, or its parts do not agree. -/
  | inconsistent
  /-- A path is no template. -/
  | malformedTemplate (flaw : Template.Flaw)
  /-- An extension among the paths is a text or a list. -/
  | objectExpected
deriving DecidableEq

/-- The report of a document that is turned down. -/
def Rejection.message : Rejection → Text
  | .inconsistent => "the parts of the document do not agree"
  | .malformedTemplate flaw => flaw.message
  | .objectExpected => "expected an object"

/-- The schemas that have been looked at, by the segments that lead to them. -/
abbrev Seen := List (List Text)

/-- A node of a document and the segments that lead to it. -/
structure Place where
  segments : List Text
  value : Json

namespace Place

/-- A field of a node. -/
def field? (place : Place) (name : Text) : Option Place :=
  (place.value.field? name).map fun v ↦ ⟨place.segments ++ [name], v⟩

/-- The items of a node, if it is a list. -/
def items (place : Place) : List Place :=
  match place.value with
  | .array vs => vs.zipIdx.map fun (v, i) ↦ ⟨place.segments ++ [Text.ofNat i], v⟩
  | _ => []

/-- The fields of a node, if it is an object. -/
def fields (place : Place) : List (Text × Place) :=
  match place.value with
  | .object fs => fs.map fun (name, v) ↦ (name, ⟨place.segments ++ [name], v⟩)
  | _ => []

/-- The node that a node refers to, or the node itself. -/
def followed (document : Json) : (bound : Nat) → Place → Place
  | 0, place => place
  | bound + 1, place =>
    match place.value.field? "$ref" with
    | some (.string url) =>
      match Spec.target url with
      | .ok (.internal pointer) =>
        match Spec.lookUp document (Spec.segments pointer) with
        | some v => followed document bound ⟨Spec.segments pointer, v⟩
        | none => place
      | _ => place
    | _ => place

end Place

/-- The number of references that are followed one after the other. -/
def referenceBound : Nat := 100

/-- The names of the properties that a schema declares, in itself or in schemas it combines. -/
def propertyNames (document : Json) : (bound : Nat) → Place → List Text
  | 0, _ => []
  | bound + 1, place =>
    let schema := place.followed document referenceBound
    let own := ((schema.field? "properties").map Place.fields).getD []
    let combined := (["allOf", "anyOf", "oneOf"] : List Text).flatMap fun kind ↦
      ((schema.field? kind).map Place.items).getD []
    let inner := ["items", "not"].filterMap fun kind ↦ schema.field? (Text.ofString kind)
    own.map (·.1) ++ (combined ++ inner).flatMap (propertyNames document bound)

/-- Are the required properties of a schema declared, in itself or in schemas it is all of? -/
def requiredDeclared (document : Json) (schema : Place) : Bool :=
  let required := ((schema.value.field? "required").bind Value.items?).getD []
  let own := (((schema.field? "properties").map Place.fields).getD []).map (·.1)
  let nested := (((schema.field? "allOf").map Place.items).getD []).flatMap
    (propertyNames document (document.depth + 1))
  required.all fun name ↦
    match name with
    | .string name => decide (name ∈ own ++ nested)
    | _ => false

/-- Is the default of a schema, if it has one, an instance of it? -/
def defaultFits (schema : Place) : Bool :=
  match schema.value.field? "default" with
  | some .null => schema.value.field? "nullable" == some (.bool true) ||
      isInstance (schema.value.depth + 1) schema.value .null
  | some v => isInstance (schema.value.depth + 1) schema.value v
  | none => true

/-- The schemas inside of a schema. -/
def innerSchemas (schema : Place) : List Place :=
  let listed (kind : Text) : List Place := ((schema.field? kind).map Place.items).getD []
  listed "allOf" ++ listed "anyOf" ++ listed "oneOf" ++ (schema.field? "not").toList
    ++ (schema.field? "items").toList
    ++ (((schema.field? "properties").map Place.fields).getD []).map (·.2)

/-- A schema and those inside of it, each looked at once; `outermost` says whether required
properties have to be declared. -/
def checkSchema (document : Json) :
    (bound : Nat) → (outermost : Bool) → Place → Seen → Except Rejection Seen
  | 0, _, _, seen => .ok seen
  | bound + 1, outermost, place, seen =>
    let schema := place.followed document referenceBound
    if schema.segments ∈ seen then .ok seen
    else do
      let seen ← (innerSchemas schema).foldlM
        (fun seen inner ↦ checkSchema document bound false inner seen)
        (schema.segments :: seen)
      if outermost ∧ ¬requiredDeclared document schema then .error .inconsistent
      else if ¬defaultFits schema then .error .inconsistent
      else .ok seen

/-- A schema that is not inside of another one. -/
def checkOutermost (document : Json) (place : Place) (seen : Seen) : Except Rejection Seen :=
  checkSchema document (document.size + 1) true place seen

/-- Places one after the other. -/
def checkEach (check : Place → Seen → Except Rejection Seen) (places : List Place) (seen : Seen) :
    Except Rejection Seen :=
  places.foldlM (fun seen place ↦ check place seen) seen

/-- The parameters of a list: their schemas, and that no name occurs twice in one place. -/
def checkParameters (document : Json) :
    List Place → (names : List (Json × Json)) → Seen → Except Rejection Seen
  | [], _, seen => .ok seen
  | place :: rest, names, seen => do
    let parameter := place.followed document referenceBound
    let seen ← checkEach (checkOutermost document) (parameter.field? "schema").toList seen
    match parameter.value.field? "name", parameter.value.field? "in" with
    | some name, some location =>
      if (name, location) ∈ names then .error .inconsistent
      else checkParameters document rest ((name, location) :: names) seen
    | _, _ => .error .inconsistent

/-- The parameters of a node, if it has some. -/
def checkParameterList (document : Json) (node : Place) (seen : Seen) : Except Rejection Seen :=
  match node.field? "parameters" with
  | none => .ok seen
  | some list =>
    match list.value with
    | .array _ => checkParameters document list.items [] seen
    | _ => .error .inconsistent

/-- The names of the parameters of a node that are part of its path. -/
def pathParameterNames (document : Json) (node : Place) : List Text :=
  (((node.field? "parameters").map Place.items).getD []).filterMap fun place ↦
    let parameter := place.followed document referenceBound
    match parameter.value.field? "in", parameter.value.field? "name" with
    | some (.string location), some (.string name) =>
      if location = "path" then some name else none
    | _, _ => none

/-- The forms of a response. -/
def checkResponse (document : Json) (place : Place) (seen : Seen) : Except Rejection Seen :=
  let response := place.followed document referenceBound
  match response.value with
  | .object _ =>
    let media := ((response.field? "content").map Place.fields).getD []
    checkEach (checkOutermost document) (media.filterMap fun (_, form) ↦ form.field? "schema") seen
  | .string _ => .ok seen
  | .array _ => .ok seen
  | _ => .error .inconsistent

/-- What has been met on the way through a document. -/
structure Met where
  operationIds : List Json
  seen : Seen

/-- An operation of a path item. -/
def checkOperation (document : Json) (path : Text) (item operation : Place) (met : Met) :
    Except Rejection Met :=
  match operation.value with
  | .object fields => do
    let id := (Fields.get? fields "operationId").getD .null
    if id ≠ .null ∧ id ∈ met.operationIds then .error .inconsistent
    else
      let seen ←
        match operation.field? "responses" with
        | none => .ok met.seen
        | some responses =>
          match responses.value with
          | .object _ =>
            checkEach (checkResponse document) (responses.fields.map (·.2)) met.seen
          | _ => .error .objectExpected
      let seen ← checkParameterList document operation seen
      match Template.names path with
      | .error flaw => .error (.malformedTemplate flaw)
      | .ok names =>
        let declared := pathParameterNames document operation ++ pathParameterNames document item
        if names.all fun n ↦ n ∈ declared then .ok ⟨id :: met.operationIds, seen⟩
        else .error .inconsistent
  | _ => .error .inconsistent

/-- A path item and its operations. -/
def checkPathItem (document : Json) (met : Met) (entry : Text × Place) : Except Rejection Met :=
  let (path, place) := entry
  let item := place.followed document referenceBound
  match item.value with
  | .object _ => do
    let seen ← checkParameterList document item met.seen
    let operations := item.fields.filter fun f ↦ f.1 ∈ Spec.methods
    operations.foldlM (fun met f ↦ checkOperation document path item f.2 met) { met with seen }
  | .string _ => .error .objectExpected
  | .array _ => .error .objectExpected
  | _ => .error .inconsistent

/-- The parts of a document. -/
def checkDocument (document : Json) : Except Rejection Unit := do
  let root : Place := ⟨[], document⟩
  let paths := ((root.field? "paths").map Place.fields).getD []
  let met ← paths.foldlM (checkPathItem document) ⟨[], []⟩
  let schemas := (((root.field? "components").bind (·.field? "schemas")).map Place.fields).getD []
  let _ ← checkEach (checkOutermost document) (schemas.map (·.2)) met.seen

/-- A document that has the shape of one and whose parts agree. -/
def accept (document : Json) : Except Rejection Unit :=
  if isWellFormed document then checkDocument document else .error .inconsistent

end Acceptance

end ApiTools
