import ApiTools.Json.Value

/-!
# Equivalence of JSON values

Two values are equivalent when they denote the same data: numbers are compared by what they
count, whole or not, and the order of fields does not matter. A truth value is no number.
-/

namespace ApiTools

namespace Json

/-- Do a whole number and a double count the same? -/
def sameCount (i : Int) (x : Double) : Bool := x.toInt? == some i

mutual

/-- Are two values equivalent? -/
def equivalent : Json → Json → Bool
  | .null, .null => true
  | .bool a, .bool b => a == b
  | .int i, .int j => i == j
  | .int i, .float x => sameCount i x
  | .float x, .int i => sameCount i x
  | .float x, .float y => x.sameNumber y
  | .string s, .string t => s == t
  | .array vs, .array ws => equivalentItems vs ws
  | .object fs, .object gs => fs.length == gs.length && equivalentFields fs gs
  | _, _ => false

/-- Are the values of two lists equivalent one by one? -/
def equivalentItems : List Json → List Json → Bool
  | [], [] => true
  | v :: vs, w :: ws => equivalent v w && equivalentItems vs ws
  | _, _ => false

/-- Is each of the fields among the others, with an equivalent value? -/
def equivalentFields : List (Text × Json) → List (Text × Json) → Bool
  | [], _ => true
  | (name, v) :: rest, others =>
    (match Fields.get? others name with
      | some w => equivalent v w
      | none => false) && equivalentFields rest others

end

/-- Are no two values of a list equivalent? -/
def distinct : List Json → Bool
  | [] => true
  | v :: rest => !rest.any (equivalent v) && distinct rest

end Json

end ApiTools
