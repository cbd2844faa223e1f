import ApiTools.Tool.Identifier
import ApiTools.Validation.Lenient

/-!
# Input models

The model of a tool's arguments has one slot for each parameter and one for the body. A slot is
filled under its alias, the parameter's declared name, or else under the name of its field; a
parameter whose declared name another slot already answers to is filled under its field's name
alone. What is not a slot's is kept as it is.

A model keeps some names for itself. It takes no field under the name of one of its methods, and
leaves out one under the name of its settings, whose values are then no slot's.

A payload that fits the model is turned into the arguments of a call, keyed by the declared
names of the parameters.
-/

namespace ApiTools

/-- What a slot accepts. -/
inductive SlotType where
  | string
  | integer
  | number
  | boolean
  | oneOf (texts : List Text)
  | body
deriving DecidableEq

/-- A place for one argument. -/
structure Slot where
  /-- The name of the field. -/
  field : Text
  /-- The name that fills the slot in preference to the field's. -/
  otherName : Option Text
  /-- The name that the argument gets. -/
  target : Text
  type : SlotType
  required : Bool
  description : Option Text
deriving DecidableEq

/-- The model of a tool's arguments. -/
structure InputModel where
  name : Text
  slots : List Slot
deriving DecidableEq

/-- Why there is no model. -/
inductive ModelError where
  /-- A parameter's type is none of the known ones. -/
  | unknownType (name : Text)
  /-- A field would be settings of another kind. -/
  | otherSettings
  /-- A field has the name of a method. -/
  | methodName (name : Text)
  /-- A surrogate stands in a name of a field or in a text that it is restricted to. -/
  | unencodable
deriving DecidableEq

namespace SlotType

/-- The type of a slot for a parameter: its enumeration if it has one that is not empty. -/
def ofParameter (p : Parameter) : Except ModelError SlotType :=
  let restricted (type : SlotType) : SlotType :=
    match p.enumValues with
    | some (v :: rest) => .oneOf (v :: rest)
    | _ => type
  if p.primitiveType = "string" then .ok (restricted .string)
  else if p.primitiveType = "integer" then .ok (restricted .integer)
  else if p.primitiveType = "number" then .ok (restricted .number)
  else if p.primitiveType = "boolean" then .ok (restricted .boolean)
  else .error (.unknownType p.primitiveType)

variable {ε : Type}

/-- A body is a text or an object. -/
def readBody : Value ε → Checked (Value ε)
  | .string t => .ok (.string t)
  | .object fields => .ok (.object fields)
  | _ => .error [⟨[.field "str"], .stringType⟩, ⟨[.field "dict[str,any]"], .dictType⟩]

/-- A value as the type of a slot. -/
def read : SlotType → Value ε → Checked (Value ε)
  | .string, v => Value.string <$> Lenient.checked (Lenient.text v)
  | .integer, v => Value.int <$> Lenient.checked (Lenient.int v)
  | .number, v => Value.float <$> Lenient.checked (Lenient.float v)
  | .boolean, v => Value.bool <$> Lenient.checked (Lenient.bool v)
  | .oneOf texts, v => Value.string <$> Lenient.checked (Lenient.oneOf texts v)
  | .body, v => readBody v

end SlotType

namespace Slot

variable {ε : Type}

/-- The names of a slot, and the texts that it is restricted to. -/
def texts (slot : Slot) : List Text :=
  let restriction : List Text :=
    match slot.type with
    | .oneOf texts => texts
    | _ => []
  slot.field :: slot.target :: (slot.otherName.toList ++ restriction)

/-- The name that callers are told to use. -/
def exposed (slot : Slot) : Text := slot.otherName.getD slot.field

/-- The name under which a payload fills the slot, and the value there. -/
def find? (slot : Slot) (payload : Fields (Value ε)) : Option (Text × Value ε) :=
  let named := (payload.get? slot.field).map fun v ↦ (slot.field, v)
  match slot.otherName with
  | none => named
  | some name => ((payload.get? name).map fun v ↦ (name, v)).or named

/-- The argument that a payload gives to a slot; null where it gives none. -/
def read (slot : Slot) (payload : Fields (Value ε)) : Checked (Value ε) :=
  match slot.find? payload with
  | none => if slot.required then .error [⟨[.field slot.exposed], .missing⟩] else .ok .null
  | some (key, v) =>
    Checked.under (.field key) <|
      match slot.required, v with
      | false, .null => .ok .null
      | _, v => slot.type.read v

end Slot

namespace InputModel

/-- The slots of some parameters; `fields` are the names in use for fields and `exposed` the
names in use by callers. -/
def parameterSlots :
    List Parameter → (fields exposed : List Text) → Except ModelError (List Slot)
  | [], _, _ => .ok []
  | p :: rest, fields, exposed => do
    let field := Identifier.unique (Identifier.fieldName p.sanitizedName) (fields ++ exposed)
    let type ← SlotType.ofParameter p
    if p.name ∈ exposed then
      return ⟨field, none, p.name, type, p.required, p.description⟩ ::
        (← parameterSlots rest (field :: fields) (field :: exposed))
    else
      return ⟨field, some p.name, p.name, type, p.required, p.description⟩ ::
        (← parameterSlots rest (field :: fields) (p.name :: exposed))

/-- The slot of the body, if the tool takes one. -/
def bodySlots (tool : Tool) : List Slot :=
  if tool.hasBody then
    [⟨"body", none, "body", .body, tool.bodyRequired, tool.bodyDescription⟩]
  else []

/-- The fields that the model of a tool is asked for. -/
def definitions (tool : Tool) : Except ModelError (List Slot) := do
  let own ← parameterSlots tool.parameters [] (if tool.hasBody then ["body"] else [])
  return own ++ bodySlots tool

/-- The name that a model has for its settings. -/
def settingsName : Text := "model_config"

/-- The name that a model had for its settings before, which is refused beside the present one. -/
def formerSettingsName : Text := "Config"

/-- The names of methods that a model refuses for its fields. -/
def methodNames : List Text :=
  ["model_dump", "model_dump_json", "model_validate", "model_validate_json",
    "model_validate_strings"].map Text.ofString

/-- The name of what a model calls behind every reading, if there is something under it. -/
def hookName : Text := "model_post_init"

/-- The fields that are not left out for their name. -/
def kept (fields : List Slot) : List Slot := fields.filter fun f ↦ f.field ≠ settingsName

/-- The slots that a model has for the fields that it is asked for. -/
def slotsFor (fields : List Slot) : Except ModelError (List Slot) :=
  if fields.any fun f ↦ f.field = formerSettingsName then .error .otherSettings
  else
    match fields.find? fun f ↦ f.field ∈ methodNames with
    | some f => .error (.methodName f.field)
    | none =>
      if (kept fields).any fun f ↦ f.texts.any (·.any CodePoint.isSurrogate) then
        .error .unencodable
      else .ok (kept fields)

/-- The model of a tool's arguments. -/
def ofTool (tool : Tool) : Except ModelError InputModel := do
  let fields ← definitions tool
  return ⟨Identifier.sanitizeStrictly tool.id ++ "Input", ← slotsFor fields⟩

variable {ε : Type}

/-- The arguments that a payload gives to the slots, by target, nulls included. -/
def readSlots (payload : Fields (Value ε)) : List Slot → Checked (Fields (Value ε))
  | [] => .ok []
  | slot :: rest =>
    Checked.both (fun v args ↦ (slot.target, v) :: args) (slot.read payload)
      (readSlots payload rest)

/-- The fields of a payload that fill no slot. -/
def extras (model : InputModel) (payload : Fields (Value ε)) : Fields (Value ε) :=
  let used := model.slots.filterMap fun slot ↦ (slot.find? payload).map (·.1)
  payload.filter fun f ↦ f.1 ∉ used

/-- Is a value there? -/
def isGiven : Value ε → Bool
  | .null => false
  | _ => true

/-- Does a field stand where a model has what it calls behind every reading? -/
def hasHook (model : InputModel) : Bool := model.slots.any fun slot ↦ slot.field = hookName

/-- The arguments of a call whose payload is an object: those of the slots, then the fields
that fill none, each name once and without nulls. A field in the place of what is called behind the
reading cannot be called. -/
def arguments (model : InputModel) (payload : Value ε) : Checked (Fields (Value ε)) :=
  match payload with
  | .object fields =>
    if Fields.hasSurrogateName fields then Checked.refuse .stringUnicode
    else do
      let filled ← readSlots fields model.slots
      if model.hasHook then Checked.refuse .notCallable
      else
        let all := filled ++ model.extras fields
        return Fields.ofList (all.filter fun f ↦ isGiven f.2)
  | _ => Checked.refuse .modelType

end InputModel

end ApiTools
