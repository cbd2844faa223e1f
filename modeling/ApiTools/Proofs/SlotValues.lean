import ApiTools.Proofs.Slots
import ApiTools.Request.Argument

/-!
# Values of slots

What a payload gives to the slots of a model, and the arguments that come of it: the values given,
in the order of the slots and by target, then what fills no slot.
-/

namespace ApiTools

variable {ε : Type}

/-- An argument is given if it is found and not null. -/
theorem Arguments.given?_eq_filter (args : Arguments) (name : Text) :
    args.given? name = (args.get? name).filter InputModel.isGiven := by
  rw [given?]
  cases args.get? name with
  | none => rfl
  | some v => cases v <;> rfl

namespace SlotType

/-- No type has a null. -/
theorem read_null (type : SlotType) (w : Value ε) : type.read .null ≠ .ok w := by
  intro h
  cases type <;> cases h

/-- What is read is never a null. -/
theorem isGiven_of_read {type : SlotType} {v w : Value ε} (h : type.read v = .ok w) :
    InputModel.isGiven w = true := by
  cases type with
  | body => cases v <;> cases h <;> rfl
  | _ =>
    obtain ⟨a, _, rfl⟩ := Outcome.map_ok_iff.mp h
    rfl

end SlotType

namespace Slot

/-- The value that a payload gives to a slot, unless there is none or it is null. -/
def given? (slot : Slot) (payload : Fields (Value ε)) : Option (Value ε) :=
  ((slot.find? payload).map (·.2)).filter InputModel.isGiven

/-- The value that a payload gives to a slot, as the slot's type. -/
def value? (slot : Slot) (payload : Fields (Value ε)) : Option (Value ε) :=
  (slot.given? payload).bind fun v ↦ (slot.type.read v).toOption

/-- A payload gives to a slot what fits it; nothing may be given if the slot is not required. -/
def Fits (slot : Slot) (payload : Fields (Value ε)) : Prop :=
  match slot.given? payload with
  | none => slot.required = false
  | some v => ∃ w, slot.type.read v = .ok w

variable {slot : Slot} {payload : Fields (Value ε)} {v w : Value ε}

/-- The value of a slot is what is given to it, read as its type. -/
theorem value?_eq_some_iff :
    slot.value? payload = some w ↔
      ∃ v, slot.given? payload = some v ∧ slot.type.read v = .ok w := by
  rw [value?, Option.bind_eq_some_iff]
  refine exists_congr fun v ↦ and_congr_right fun _ ↦ ?_
  cases slot.type.read v <;> simp [Except.toOption]

/-- A slot is filled under the name that callers are told to use, else under that of its field. -/
theorem find?_eq (slot : Slot) (payload : Fields (Value ε)) :
    slot.find? payload = ((payload.get? slot.exposed).map fun v ↦ (slot.exposed, v)).or
      ((payload.get? slot.field).map fun v ↦ (slot.field, v)) := by
  rw [find?, exposed]
  cases slot.otherName with
  | none => exact (Option.or_self).symm
  | some name => rfl

/-- What stands under the name that callers are told to use is given. -/
theorem given?_of_get?_exposed (h : payload.get? slot.exposed = some v) :
    slot.given? payload = (some v).filter InputModel.isGiven := by
  rw [given?, find?_eq, h]
  rfl

/-- Where nothing stands there, what stands under the name of the field is given. -/
theorem given?_of_get?_field (h : payload.get? slot.exposed = none) :
    slot.given? payload = (payload.get? slot.field).filter InputModel.isGiven := by
  rw [given?, find?_eq, h, Option.map_none, Option.none_or, Option.map_map]
  exact congrArg _ Option.map_id'

/-- A slot of one name has what is given under it. -/
theorem given?_of_otherName {payload : Arguments} (h : slot.otherName = none) :
    slot.given? payload = payload.given? slot.field := by
  rw [given?, find?, h, Arguments.given?_eq_filter]
  dsimp only
  rw [Option.map_map]
  exact congrArg _ Option.map_id'

private theorem read_of_find? {key : Text} (h : slot.find? payload = some (key, v)) :
    slot.read payload = Checked.under (.field key)
      (if slot.required = false ∧ InputModel.isGiven v = false then .ok .null
        else slot.type.read v) := by
  rw [read, h]
  cases slot.required <;> cases v <;> rfl

/-- A slot reads a null where nothing is given and nothing need be, else the value given. -/
theorem read_ok_iff : slot.read payload = .ok w ↔
    (slot.given? payload = none ∧ slot.required = false ∧ w = .null) ∨
      ∃ v, slot.given? payload = some v ∧ slot.type.read v = .ok w := by
  cases hfind : slot.find? payload with
  | none =>
    rw [read, given?, hfind]
    cases slot.required <;> simp [eq_comm]
  | some found =>
    obtain ⟨key, v⟩ := found
    rw [read_of_find? hfind, Checked.under_ok_iff, given?, hfind, Option.map_some]
    cases hgiven : InputModel.isGiven v with
    | true => simp [hgiven]
    | false =>
      have hnull : v = .null := by
        cases v <;> first | rfl | cases hgiven
      subst hnull
      cases slot.required with
      | false => simpa [hgiven] using eq_comm
      | true => simp [hgiven, SlotType.read_null]

/-- A slot can be read when what is given fits. -/
theorem fits_iff : slot.Fits payload ↔ ∃ w, slot.read payload = .ok w := by
  simp only [read_ok_iff, Fits]
  cases slot.given? payload with
  | none => simp
  | some v => simp

/-- What fits and is given is a value. -/
theorem Fits.exists_value (h : slot.Fits payload) (hgiven : slot.given? payload = some v) :
    ∃ w, slot.type.read v = .ok w ∧ slot.value? payload = some w := by
  rw [Fits, hgiven] at h
  obtain ⟨w, hread⟩ := h
  exact ⟨w, hread, value?_eq_some_iff.mpr ⟨v, hgiven, hread⟩⟩

/-- Of what a slot reads the value given is kept. -/
theorem value?_of_read (h : slot.read payload = .ok w) :
    slot.value? payload = if InputModel.isGiven w then some w else none := by
  rcases read_ok_iff.mp h with ⟨hgiven, _, rfl⟩ | ⟨v, hgiven, hread⟩
  · rw [value?, hgiven]
    rfl
  · rw [value?_eq_some_iff.mpr ⟨v, hgiven, hread⟩, SlotType.isGiven_of_read hread, if_pos rfl]

end Slot

namespace InputModel

variable {payload : Fields (Value ε)} {slots : List Slot} {model : InputModel}

/-- The values that a payload gives to some slots, by target and in order. -/
def valuesOf (payload : Fields (Value ε)) (slots : List Slot) : Fields (Value ε) :=
  slots.filterMap fun slot ↦ (slot.value? payload).map fun w ↦ (slot.target, w)

/-- Values are given to some of the targets, in their order. -/
theorem names_valuesOf_sublist (payload : Fields (Value ε)) (slots : List Slot) :
    (valuesOf payload slots).names.Sublist (slots.map Slot.target) := by
  induction slots with
  | nil => exact List.Sublist.refl []
  | cons slot rest ih =>
    rw [valuesOf, List.filterMap_cons]
    cases slot.value? payload with
    | none => exact ih.cons slot.target
    | some w => exact ih.cons_cons slot.target

/-- The slots can be read when what is given to each of them fits. -/
theorem exists_readSlots_iff :
    (∃ filled, readSlots payload slots = .ok filled) ↔ ∀ slot ∈ slots, slot.Fits payload := by
  induction slots with
  | nil => simp [readSlots]
  | cons slot rest ih =>
    rw [List.forall_mem_cons, ← ih, Slot.fits_iff]
    simp only [readSlots, Checked.both_ok_iff]
    constructor
    · rintro ⟨_, w, filled, hw, hfilled, _⟩
      exact ⟨⟨w, hw⟩, ⟨filled, hfilled⟩⟩
    · rintro ⟨⟨w, hw⟩, ⟨filled, hfilled⟩⟩
      exact ⟨_, w, filled, hw, hfilled, rfl⟩

/-- What is read of the slots, apart from nulls, are the values given. -/
theorem filter_of_readSlots {filled : Fields (Value ε)}
    (h : readSlots payload slots = .ok filled) :
    filled.filter (fun f ↦ isGiven f.2) = valuesOf payload slots := by
  induction slots generalizing filled with
  | nil =>
    cases h
    rfl
  | cons slot rest ih =>
    obtain ⟨w, more, hread, hmore, rfl⟩ := Checked.both_ok_iff.mp h
    rw [valuesOf, List.filterMap_cons, Slot.value?_of_read hread, List.filter_cons, ih hmore]
    split <;> rfl

/-- The values that a payload gives to no slot. -/
def undeclared (model : InputModel) (payload : Fields (Value ε)) : Fields (Value ε) :=
  (model.extras payload).filter fun f ↦ isGiven f.2

/-- What is given to no slot has no name that callers use. -/
theorem notMem_names_undeclared {slot : Slot} (hslot : slot ∈ model.slots) :
    slot.exposed ∉ (model.undeclared payload).names := by
  intro hmem
  obtain ⟨f, hf, hname⟩ := List.mem_map.mp hmem
  obtain ⟨hpayload, hunused⟩ := List.mem_filter.mp (List.mem_filter.mp hf).1
  obtain ⟨v, hv⟩ : ∃ v, payload.get? slot.exposed = some v := by
    apply Option.ne_none_iff_exists'.mp
    rw [ne_eq, Fields.get?_eq_none_iff, not_not]
    exact List.mem_map.mpr ⟨f, hpayload, hname⟩
  refine of_decide_eq_true hunused (List.mem_filterMap.mpr ⟨slot, hslot, ?_⟩)
  rw [Slot.find?_eq, hv, hname]
  rfl

/-- An object that a model can read: its names can be written, and what it gives to each slot
fits. Nothing stands in the place of what is called behind the reading. -/
structure Accepts (model : InputModel) (payload : Fields (Value ε)) : Prop where
  names : ∀ f ∈ payload, f.1.IsClean
  fits : ∀ slot ∈ model.slots, slot.Fits payload
  hookless : model.hasHook = false

/-- The values that a payload gives, those of the slots by target, then those of no slot. -/
def given (model : InputModel) (payload : Fields (Value ε)) : Fields (Value ε) :=
  valuesOf payload model.slots ++ model.undeclared payload

/-- An object is accepted when it can be read. Then the arguments are the values of the slots, one
set after the other, and what is given to no slot. -/
theorem arguments_ok_iff {args : Fields (Value ε)} :
    model.arguments (.object payload) = .ok args ↔
      model.Accepts payload ∧ args = Fields.ofList (model.given payload) := by
  rw [arguments]
  split
  · next hdirty =>
    constructor
    · intro h
      cases h
    · intro h
      rw [Fields.hasSurrogateName_eq_false_iff.mpr h.1.names] at hdirty
      cases hdirty
  next hclean =>
  have hnames := Fields.hasSurrogateName_eq_false_iff.mp (Bool.eq_false_iff.mpr hclean)
  rw [Outcome.bind_ok_iff]
  constructor
  · rintro ⟨filled, hfilled, h⟩
    split at h
    · cases h
    next hhook =>
    cases h
    refine ⟨⟨hnames, exists_readSlots_iff.mp ⟨filled, hfilled⟩, Bool.eq_false_iff.mpr hhook⟩, ?_⟩
    rw [List.filter_append, filter_of_readSlots hfilled, given, undeclared]
  · rintro ⟨haccepts, rfl⟩
    obtain ⟨filled, hfilled⟩ := exists_readSlots_iff.mpr haccepts.fits
    refine ⟨filled, hfilled, ?_⟩
    simp only [haccepts.hookless, List.filter_append, filter_of_readSlots hfilled, given,
      undeclared, Bool.false_eq_true, if_false]
    rfl

/-- The value that a payload gives under a name in the end: that of no slot, else that of the last
slot with a value that has the name as its target. -/
def lastValue? (model : InputModel) (payload : Fields (Value ε)) (name : Text) :
    Option (Value ε) :=
  Fields.get? (model.given payload).reverse name

/-- What is given is not null. -/
theorem isGiven_of_mem_given {f : Text × Value ε} (h : f ∈ model.given payload) :
    isGiven f.2 = true := by
  rcases List.mem_append.mp h with hvalue | hundeclared
  · obtain ⟨slot, -, hvalue⟩ := List.mem_filterMap.mp hvalue
    obtain ⟨w, hw, rfl⟩ := Option.map_eq_some_iff.mp hvalue
    obtain ⟨v, -, hread⟩ := Slot.value?_eq_some_iff.mp hw
    exact SlotType.isGiven_of_read hread
  · exact (List.mem_filter.mp hundeclared).2

/-- A target with a value has a last one. -/
theorem exists_lastValue? {slot : Slot} {v : Value ε} (hslot : slot ∈ model.slots)
    (hvalue : slot.value? payload = some v) :
    ∃ w, model.lastValue? payload slot.target = some w := by
  apply Option.ne_none_iff_exists'.mp
  rw [lastValue?, ne_eq, Fields.get?_eq_none_iff, not_not, Fields.names, List.map_reverse,
    List.mem_reverse]
  refine List.mem_map.mpr ⟨(slot.target, v), List.mem_append_left _ ?_, rfl⟩
  refine List.mem_filterMap.mpr ⟨slot, hslot, ?_⟩
  rw [hvalue]
  rfl

/-- The argument of a name is the value given under it in the end. -/
theorem given?_arguments {payload args : Arguments}
    (haccepted : model.arguments (.object payload) = .ok args) (name : Text) :
    args.given? name = model.lastValue? payload name := by
  rw [Arguments.given?_eq_filter, (arguments_ok_iff.mp haccepted).2, Fields.get?_ofList,
    ← lastValue?]
  cases hlast : model.lastValue? payload name with
  | none => rfl
  | some w =>
    have hmem := List.mem_reverse.mp (Fields.mem_of_get? hlast)
    rw [Option.filter_some, if_pos (isGiven_of_mem_given hmem)]

end InputModel

end ApiTools
