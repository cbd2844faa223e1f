import ApiTools.Json.Equivalence

/-!
# Instances of schemas

Whether a value is an instance of a schema, as far as it matters for defaults: types, which
admit null where the schema says so, enumerations, bounds, sizes, items, properties and
combinations. Patterns and named formats are not looked at.
-/

namespace ApiTools

namespace Acceptance

/-- Has a value the type of a name? -/
def hasType (name : Text) : Json → Bool
  | .string _ => name == "string"
  | .int _ => name == "integer" || name == "number"
  | .float _ => name == "number"
  | .bool _ => name == "boolean"
  | .array _ => name == "array"
  | .object _ => name == "object"
  | _ => false

/-- Where a number stands among all doubles, the undefined one apart. -/
def numberKey? : Json → Option Int
  | .int i => (Double.ofInt i).orderKey?
  | .float x => x.orderKey?
  | _ => none

/-- Is one number at most another, or less? Values that are not numbers are not compared. -/
def ordered (strict : Bool) (v w : Json) : Bool :=
  match numberKey? v, numberKey? w with
  | some a, some b => if strict then a < b else a ≤ b
  | _, _ => true

/-- Does a size obey a bound, where the bound is given? -/
def sizeAtLeast (bound : Option Json) (size : Nat) : Bool :=
  match bound with
  | some (.int i) => i ≤ size
  | _ => true

@[inherit_doc sizeAtLeast]
def sizeAtMost (bound : Option Json) (size : Nat) : Bool :=
  match bound with
  | some (.int i) => (size : Int) ≤ i
  | _ => true

/-- Conditions on a value by itself. -/
def simpleConditions (schema : Fields Json) (v : Json) : Bool :=
  let is (name : Text) : Bool := schema.get? name == some (.bool true)
  let typed :=
    match schema.get? "type" with
    | some (.string name) => hasType name v || (v == .null && is "nullable")
    | _ => true
  let listed :=
    match schema.get? "enum" with
    | some (.array values) => values.any (Json.equivalent v)
    | _ => true
  let bounded :=
    (match schema.get? "minimum" with
      | some m => ordered (is "exclusiveMinimum") m v
      | none => true) &&
    (match schema.get? "maximum" with
      | some m => ordered (is "exclusiveMaximum") v m
      | none => true)
  let sized :=
    match v with
    | .string t => sizeAtLeast (schema.get? "minLength") t.length &&
        sizeAtMost (schema.get? "maxLength") t.length
    | .array items => sizeAtLeast (schema.get? "minItems") items.length &&
        sizeAtMost (schema.get? "maxItems") items.length &&
        (!is "uniqueItems" || Json.distinct items)
    | .object fields => sizeAtLeast (schema.get? "minProperties") fields.length &&
        sizeAtMost (schema.get? "maxProperties") fields.length
    | _ => true
  typed && listed && bounded && sized

/-- May a required property be missing, being there in one direction alone? -/
def isOneWay (properties : Option Json) (name : Text) : Bool :=
  match properties.bind (·.field? name) with
  | some property => property.field? "readOnly" == some (.bool true) ||
      property.field? "writeOnly" == some (.bool true)
  | none => false

/-- Are the required properties there? -/
def requiredPresent (schema fields : Fields Json) : Bool :=
  match schema.get? "required" with
  | some (.array names) => names.all fun name ↦
      match name with
      | .string name => fields.has name || isOneWay (schema.get? "properties") name
      | _ => true
  | _ => true

/-- Is a value an instance of a schema? The bound counts steps into the schema. -/
def isInstance : (bound : Nat) → (schema v : Json) → Bool
  | 0, _, _ => true
  | bound + 1, schema, v =>
    match schema with
    | .object keywords =>
      let keyword (name : Text) : Option Json := Fields.get? keywords name
      let members (name : Text) : Option (List Json) := (keyword name).bind Value.items?
      let combined :=
        ((members "allOf").getD []).all (isInstance bound · v) &&
        (match members "anyOf" with
          | some ss => ss.any (isInstance bound · v)
          | none => true) &&
        (match members "oneOf" with
          | some ss => (ss.filter (isInstance bound · v)).length == 1
          | none => true) &&
        (match keyword "not" with
          | some s => !isInstance bound s v
          | none => true)
      let inside :=
        match v with
        | .array items =>
          (match keyword "items" with
            | some s => items.all (isInstance bound s)
            | none => true)
        | .object fields =>
          let properties := ((keyword "properties").bind Value.fields?).getD []
          requiredPresent keywords fields &&
          fields.all fun (name, value) ↦
            match properties.get? name, keyword "additionalProperties" with
            | some s, _ => isInstance bound s value
            | none, some (.bool allowed) => allowed
            | none, some s => isInstance bound s value
            | none, none => true
        | _ => true
      if Fields.has keywords "$ref" then true
      else simpleConditions keywords v && combined && inside
    | _ => true

end Acceptance

end ApiTools
