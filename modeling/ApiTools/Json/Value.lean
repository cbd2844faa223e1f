import ApiTools.Json.Fields
import ApiTools.Number.Double

/-!
# Values

A value is what a JSON document denotes, with whole numbers and doubles told apart. Values that
come from elsewhere may hold other leaves; their type is the parameter. A `Json` has none.
-/

namespace ApiTools

/-- A value with leaves of the type `ε` beside those of JSON. -/
inductive Value (ε : Type) where
  | null
  | bool (b : Bool)
  | int (i : Int)
  | float (x : Double)
  | string (t : Text)
  | array (items : List (Value ε))
  | object (fields : List (Text × Value ε))
  | other (e : ε)

/-- The values of JSON documents. -/
abbrev Json := Value Empty

namespace Value

variable {ε δ : Type}

instance : Inhabited (Value ε) := ⟨.null⟩

instance : Coe Text (Value ε) := ⟨.string⟩

mutual

/-- The number of nodes of a value. -/
def size : Value ε → Nat
  | .array items => 1 + itemsSize items
  | .object fields => 1 + fieldsSize fields
  | _ => 1

/-- The number of nodes of a list of values. -/
def itemsSize : List (Value ε) → Nat
  | [] => 0
  | v :: rest => v.size + itemsSize rest

/-- The number of nodes of the values of some fields. -/
def fieldsSize : List (Text × Value ε) → Nat
  | [] => 0
  | (_, v) :: rest => v.size + fieldsSize rest

end

mutual

/-- The number of levels of a value; one for a leaf. -/
def depth : Value ε → Nat
  | .array items => 1 + itemsDepth items
  | .object fields => 1 + fieldsDepth fields
  | _ => 1

/-- The number of levels of the deepest value of a list; zero for none. -/
def itemsDepth : List (Value ε) → Nat
  | [] => 0
  | v :: rest => max v.depth (itemsDepth rest)

/-- The number of levels of the deepest value among some fields; zero for none. -/
def fieldsDepth : List (Text × Value ε) → Nat
  | [] => 0
  | (_, v) :: rest => max v.depth (fieldsDepth rest)

end

mutual

/-- A value with its foreign leaves replaced. -/
def mapOther (f : ε → Value δ) : Value ε → Value δ
  | .null => .null
  | .bool b => .bool b
  | .int i => .int i
  | .float x => .float x
  | .string t => .string t
  | .array items => .array (mapOtherItems f items)
  | .object fields => .object (mapOtherFields f fields)
  | .other e => f e

/-- The same for the values of a list. -/
def mapOtherItems (f : ε → Value δ) : List (Value ε) → List (Value δ)
  | [] => []
  | v :: rest => v.mapOther f :: mapOtherItems f rest

/-- The same for the values of some fields. -/
def mapOtherFields (f : ε → Value δ) : List (Text × Value ε) → List (Text × Value δ)
  | [] => []
  | (name, v) :: rest => (name, v.mapOther f) :: mapOtherFields f rest

end

mutual

/-- Are two values the same, the order of fields included? -/
def same [DecidableEq ε] : Value ε → Value ε → Bool
  | .null, .null => true
  | .bool a, .bool b => a == b
  | .int a, .int b => a == b
  | .float a, .float b => a == b
  | .string a, .string b => a == b
  | .array a, .array b => sameItems a b
  | .object a, .object b => sameFields a b
  | .other a, .other b => a == b
  | _, _ => false

/-- Are two lists of values the same? -/
def sameItems [DecidableEq ε] : List (Value ε) → List (Value ε) → Bool
  | [], [] => true
  | v :: vs, w :: ws => v.same w && sameItems vs ws
  | _, _ => false

/-- Are two lists of fields the same? -/
def sameFields [DecidableEq ε] : List (Text × Value ε) → List (Text × Value ε) → Bool
  | [], [] => true
  | (k, v) :: vs, (l, w) :: ws => k == l && v.same w && sameFields vs ws
  | _, _ => false

end

mutual

/-- `same` decides equality. -/
theorem same_iff [DecidableEq ε] (v w : Value ε) : v.same w = true ↔ v = w := by
  cases v <;> cases w <;> simp [same, sameItems_iff, sameFields_iff]

/-- `sameItems` decides equality. -/
theorem sameItems_iff [DecidableEq ε] (vs ws : List (Value ε)) :
    sameItems vs ws = true ↔ vs = ws := by
  cases vs with
  | nil => cases ws <;> simp [sameItems]
  | cons v vs => cases ws <;> simp [sameItems, same_iff, sameItems_iff]

/-- `sameFields` decides equality. -/
theorem sameFields_iff [DecidableEq ε] (vs ws : List (Text × Value ε)) :
    sameFields vs ws = true ↔ vs = ws := by
  cases vs with
  | nil => cases ws <;> simp [sameFields]
  | cons v vs =>
    obtain ⟨k, v⟩ := v
    cases ws with
    | nil => simp [sameFields]
    | cons w ws =>
      obtain ⟨l, w⟩ := w
      simp [sameFields, same_iff, sameFields_iff, and_assoc]

end

instance [DecidableEq ε] : DecidableEq (Value ε) :=
  fun v w ↦ decidable_of_iff _ (same_iff v w)

/-- The fields of an object. -/
def fields? : Value ε → Option (Fields (Value ε))
  | .object fields => some fields
  | _ => none

/-- The items of an array. -/
def items? : Value ε → Option (List (Value ε))
  | .array items => some items
  | _ => none

/-- The text of a string. -/
def text? : Value ε → Option Text
  | .string t => some t
  | _ => none

/-- A field of a value, if the value is an object that has it. -/
def field? (v : Value ε) (name : Text) : Option (Value ε) :=
  v.fields?.bind fun fields ↦ fields.get? name

/-- A present field of a value; an explicit null counts as absent. -/
def fieldOrNull (v : Value ε) (name : Text) : Value ε := (v.field? name).getD .null

/-- Absent in effect: null, false, zero, and everything empty. -/
def isBlank : Value ε → Bool
  | .null => true
  | .bool b => !b
  | .int i => i == 0
  | .float x => x.sameNumber (Double.zero false)
  | .string t => t.isEmpty
  | .array items => items.isEmpty
  | .object fields => fields.isEmpty
  | .other _ => false

mutual

/-- Has some whole number of a value too many digits to be written? -/
def holdsLong : Value ε → Bool
  | .int i => !Text.isShort i
  | .array items => holdsLongItems items
  | .object fields => holdsLongFields fields
  | _ => false

/-- Has one of the values of a list such a number? -/
def holdsLongItems : List (Value ε) → Bool
  | [] => false
  | v :: rest => v.holdsLong || holdsLongItems rest

/-- Has one of the values of some fields such a number? -/
def holdsLongFields : List (Text × Value ε) → Bool
  | [] => false
  | (_, v) :: rest => v.holdsLong || holdsLongFields rest

end

end Value

/-- A JSON value has no foreign leaves, so it is a value of any kind. -/
def Json.lift {ε : Type} (v : Json) : Value ε := v.mapOther nofun

namespace Value

variable {ε δ : Type}

private theorem mapOtherItems_eq_map (f : ε → Value δ) (items : List (Value ε)) :
    mapOtherItems f items = items.map (mapOther f) := by
  induction items with
  | nil => rfl
  | cons v rest ih => rw [mapOtherItems, ih, List.map_cons]

private theorem mapOtherFields_eq_mapValues (f : ε → Value δ) (fields : Fields (Value ε)) :
    mapOtherFields f fields = fields.mapValues (mapOther f) := by
  induction fields with
  | nil => rfl
  | cons field rest ih => rw [mapOtherFields, ih, Fields.mapValues, Fields.mapValues, List.map_cons]

end Value

namespace Json

variable {ε : Type}

/-- A list is lifted by its items. -/
theorem lift_array (items : List Json) :
    (lift (.array items) : Value ε) = .array (items.map lift) :=
  congrArg Value.array (Value.mapOtherItems_eq_map _ items)

/-- An object is lifted by the values of its fields. -/
theorem lift_object (fields : Fields Json) :
    (lift (.object fields) : Value ε) = .object (fields.mapValues lift) :=
  congrArg Value.object (Value.mapOtherFields_eq_mapValues _ fields)

end Json

end ApiTools
