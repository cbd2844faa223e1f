import ApiTools.Json.Equivalence

/-!
# Shapes

A shape says which values may stand somewhere in a document. Shapes that occur in several
places, or inside of themselves, are named by a `Part`; a grammar gives each part its shape.

`fits` decides whether a value has a shape. Its bound counts steps into the grammar and into the
value together; between two steps into the value there are at most four into the grammar.
-/

namespace ApiTools

namespace Acceptance

/-- The named shapes of the document format. -/
inductive Part where
  | reference | info | contact | license | server | serverVariable | components | schema
  | discriminator | xml | response | mediaType | example | header | pathItem | operation
  | responses | securityRequirement | tag | externalDocs | parameter | requestBody
  | securityScheme | oauthFlows | implicitFlow | tokenFlow | codeFlow | link | callback | encoding
deriving DecidableEq

/-- What may stand somewhere. -/
inductive Shape where
  | any
  | text (allowed : Text → Bool)
  | number (allowed : Double → Bool)
  | count
  | flag (allowed : Bool → Bool)
  | list (item : Shape) (allowed : List Json → Bool)
  /-- Fields by name, fields whose name is of a class, all other fields if there may be any, and
  a condition on the fields together. -/
  | object (fields : List (Text × Shape)) (classes : List ((Text → Bool) × Shape))
      (others : Option Shape) (allowed : Fields Json → Bool)
  /-- Exactly one of some shapes. -/
  | oneOf (shapes : List Shape)
  | part (p : Part)

/-- The double nearest to a number, if a value is one. -/
def number? : Json → Option Double
  | .int i => some (Double.ofInt i)
  | .float x => some x
  | _ => none

variable (grammar : Part → Shape)

/-- Does a value have a shape? -/
def fits : (bound : Nat) → Shape → Json → Bool
  | 0, _, _ => false
  | bound + 1, shape, v =>
    match shape with
    | .any => true
    | .text allowed =>
      match v with
      | .string t => allowed t
      | _ => false
    | .number allowed =>
      match number? v with
      | some x => allowed x
      | none => false
    | .count =>
      match v with
      | .int i => 0 ≤ i
      | _ => false
    | .flag allowed =>
      match v with
      | .bool b => allowed b
      | _ => false
    | .list item allowed =>
      match v with
      | .array items => items.all (fits bound item) && allowed items
      | _ => false
    | .object fields classes others allowed =>
      match v with
      | .object present =>
        present.all (fun (name, value) ↦
          let named := (Fields.get? fields name).toList
          let classed := (classes.filter fun c ↦ c.1 name).map (·.2)
          let shapes := named ++ classed
          if shapes = [] then
            match others with
            | some shape => fits bound shape value
            | none => false
          else shapes.all fun shape ↦ fits bound shape value)
        && allowed present
      | _ => false
    | .oneOf shapes => (shapes.filter fun shape ↦ fits bound shape v).length == 1
    | .part p => fits bound (grammar p) v

/-- The bound that is enough for a value. -/
def stepBound (v : Json) : Nat := 5 * v.depth + 5

end Acceptance

end ApiTools
