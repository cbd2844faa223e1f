import ApiTools.Proofs.SlotValues

/-!
# Arguments of their own

A payload is accepted with the values that it gives to parameters under their own names, and with no
others, exactly when it does not give a value under the name of a field whose parameter's own name
it lacks. What it gives to a field that the model leaves out has to be of the field's type already,
since it is kept as it is.
-/

namespace ApiTools

/-- The names of a tool's arguments, with the types of their values and whether they are
required. -/
inductive Tool.Declares (tool : Tool) : Text → SlotType → Bool → Prop
  | parameter {p : Parameter} {type : SlotType} (mem : p ∈ tool.parameters)
      (known : SlotType.ofParameter p = .ok type) : Declares tool p.name type p.required
  | body (taken : tool.hasBody = true) : Declares tool "body" .body tool.bodyRequired

/-- Arguments that are what a payload gives under their own names. -/
structure Tool.OwnValues (tool : Tool) (payload args : Arguments) : Prop where
  distinct : args.Distinct
  /-- The arguments are those that are given. -/
  names : ∀ name, (args.get? name).isSome = (payload.given? name).isSome
  /-- Each of them is the value given, as its own type. -/
  values : ∀ name type required v, tool.Declares name type required →
    payload.given? name = some v → ∃ w, type.read v = .ok w ∧ args.get? name = some w
  /-- Those that have to be given are. -/
  required : ∀ name type, tool.Declares name type true → (payload.given? name).isSome = true

/-- A payload does for a field that nothing reads: it has a value there if one is required, and
every value there is one of the field's type as it stands. -/
structure Slot.IsMet (f : Slot) (payload : Arguments) : Prop where
  required : f.required = true → (payload.given? f.target).isSome = true
  value : ∀ v, payload.given? f.target = some v → f.type.read v = .ok v

namespace InputModel

variable {tool : Tool} {model : InputModel} {payload args : Arguments} {fields : List Slot}
  {slot f : Slot}

/-- The fields that the model of a tool leaves out. -/
def LeftOut (tool : Tool) (f : Slot) : Prop :=
  ∃ fields, definitions tool = .ok fields ∧ f ∈ fields ∧ f.field = settingsName

/-- The fields that are left out are those that are no slots. -/
theorem leftOut_iff (hfields : definitions tool = .ok fields) (hslots : model.slots = kept fields) :
    LeftOut tool f ↔ f ∈ fields ∧ f ∉ model.slots := by
  have hnot : f ∈ fields → (f ∉ model.slots ↔ f.field = settingsName) := by
    intro hf
    rw [hslots, mem_kept, not_and, not_not]
    exact ⟨fun h ↦ h hf, fun h _ ↦ h⟩
  constructor
  · rintro ⟨others, hothers, hf, hname⟩
    rw [hfields, Except.ok.injEq] at hothers
    rw [← hothers] at hf
    exact ⟨hf, (hnot hf).mpr hname⟩
  · rintro ⟨hf, hmissing⟩
    exact ⟨fields, hfields, hf, (hnot hf).mp hmissing⟩

/-- What a tool declares are the targets of the fields that its model is asked for. -/
theorem declares_iff (hfields : definitions tool = .ok fields) {name : Text} {type : SlotType}
    {required : Bool} : tool.Declares name type required ↔
      ∃ f ∈ fields, f.target = name ∧ f.type = type ∧ f.required = required := by
  obtain ⟨own, rfl, halloc⟩ := allocation_of_definitions hfields
  constructor
  · rintro (⟨hp, hknown⟩ | hbody)
    · obtain ⟨slot, hzip⟩ := halloc.exists_slot hp
      have hfor := halloc.isFor_of_mem_zip hzip
      rw [hfor.type, Except.ok.injEq] at hknown
      exact ⟨slot, List.mem_append_left _ (List.of_mem_zip hzip).2, hfor.target, hknown,
        hfor.required⟩
    · exact ⟨_, List.mem_append_right _ (mem_bodySlots.mpr ⟨hbody, rfl⟩), rfl, rfl, rfl⟩
  · rintro ⟨slot, hslot, rfl, rfl, rfl⟩
    rcases List.mem_append.mp hslot with hslot | hslot
    · obtain ⟨p, hzip⟩ := halloc.exists_parameter hslot
      have hfor := halloc.isFor_of_mem_zip hzip
      rw [hfor.target, hfor.required]
      exact .parameter (List.of_mem_zip hzip).1 hfor.type
    · obtain ⟨hbody, rfl⟩ := mem_bodySlots.mp hslot
      exact .body hbody

/-- Where no two arguments share a name, callers use the names that the arguments get. -/
theorem exposed_eq_target (hfields : definitions tool = .ok fields)
    (hnames : (tool.parameters.map (·.name)).Nodup)
    (hbody : tool.hasBody = true → ∀ p ∈ tool.parameters, p.name ≠ "body") (hf : f ∈ fields) :
    f.exposed = f.target := by
  obtain ⟨own, rfl, halloc⟩ := allocation_of_definitions hfields
  have hunused : ∀ p ∈ tool.parameters, p.name ∉ bodyNames tool := by
    intro p hp hmem
    rw [bodyNames] at hmem
    split at hmem
    · next hhas => exact hbody hhas p hp (List.mem_singleton.mp hmem)
    · cases hmem
  rcases List.mem_append.mp hf with hf | hf
  · rw [Slot.exposed, halloc.otherName_eq hnames hunused hf, Option.getD_some]
  · obtain ⟨_, rfl⟩ := mem_bodySlots.mp hf
    rfl

/-- A slot has what is given under its exposed name unless it falls back on its field. -/
theorem given?_eq_iff : slot.given? payload = payload.given? slot.exposed ↔
    (payload.get? slot.exposed = none → payload.given? slot.field = none) := by
  rw [Arguments.given?_eq_filter, Arguments.given?_eq_filter]
  cases hexposed : payload.get? slot.exposed with
  | some v => simp [Slot.given?_of_get?_exposed hexposed]
  | none => simp [Slot.given?_of_get?_field hexposed]

section Given

variable (hfields : definitions tool = .ok fields) (hslots : model.slots = kept fields)
  (hnames : (tool.parameters.map (·.name)).Nodup)
  (hbody : tool.hasBody = true → ∀ p ∈ tool.parameters, p.name ≠ "body")
  (hdistinct : payload.Distinct)

include hfields hslots hnames hbody

/-- The slots are exposed under their targets. -/
private theorem slot_exposed (hslot : slot ∈ model.slots) :
    slot ∈ fields ∧ slot.exposed = slot.target := by
  rw [hslots] at hslot
  have hmem := (kept_sublist fields).subset hslot
  exact ⟨hmem, exposed_eq_target hfields hnames hbody hmem⟩

/-- A field is the only one of its target. -/
private theorem eq_of_target (hslot : slot ∈ model.slots) (hf : f ∈ fields)
    (h : slot.target = f.target) : slot = f := by
  obtain ⟨hmem, hexposed⟩ := slot_exposed hfields hslots hnames hbody hslot
  rw [← hexposed, ← exposed_eq_target hfields hnames hbody hf] at h
  exact List.inj_on_of_nodup_map (definitions_exposed_nodup hfields) hmem hf h

include hdistinct

/-- Where no two arguments share a name, each is the value of its own slot, or is given to none. -/
private theorem get?_arguments_iff (haccepted : model.arguments (.object payload) = .ok args)
    (name : Text) (w : Argument) : args.get? name = some w ↔
      (∃ slot ∈ model.slots, slot.target = name ∧ slot.value? payload = some w) ∨
        (name, w) ∈ model.undeclared payload := by
  have htargets : (model.slots.map Slot.target).Nodup := by
    have hexposed : ∀ slot ∈ model.slots, slot.exposed = slot.target := fun _ hslot ↦
      (slot_exposed hfields hslots hnames hbody hslot).2
    rw [← List.map_congr_left hexposed, hslots]
    exact (definitions_exposed_nodup hfields).sublist ((kept_sublist fields).map _)
  have hgiven : Fields.Distinct (model.given payload) := by
    rw [Fields.Distinct, given, Fields.names, List.map_append, List.nodup_append]
    refine ⟨htargets.sublist (names_valuesOf_sublist payload model.slots),
      hdistinct.sublist ((List.filter_sublist.trans List.filter_sublist).map _), ?_⟩
    intro name hname other hother heq
    have hmem := (names_valuesOf_sublist payload model.slots).subset hname
    obtain ⟨slot, hslot, rfl⟩ := List.mem_map.mp hmem
    have hfresh := @notMem_names_undeclared _ payload _ _ hslot
    rw [(slot_exposed hfields hslots hnames hbody hslot).2, heq] at hfresh
    exact hfresh hother
  rw [(arguments_ok_iff.mp haccepted).2, Fields.ofList_eq_self hgiven,
    Fields.get?_eq_some_iff hgiven, given, List.mem_append]
  refine or_congr_left ?_
  rw [valuesOf, List.mem_filterMap]
  refine exists_congr fun slot ↦ and_congr_right fun _ ↦ ?_
  rw [Option.map_eq_some_iff]
  constructor
  · rintro ⟨w, hvalue, heq⟩
    cases heq
    exact ⟨rfl, hvalue⟩
  · rintro ⟨rfl, hvalue⟩
    exact ⟨w, hvalue, rfl⟩

omit hfields hslots hnames hbody in
/-- What is given to no slot is given under its name. -/
private theorem given?_of_mem_undeclared {name : Text} {w : Argument}
    (h : (name, w) ∈ model.undeclared payload) : payload.given? name = some w := by
  obtain ⟨hextra, hgiven⟩ := List.mem_filter.mp h
  rw [Arguments.given?_eq_filter, Option.filter_eq_some_iff, Fields.get?_eq_some_iff hdistinct]
  exact ⟨(List.mem_filter.mp hextra).1, hgiven⟩

/-- What is given to a field that is left out goes to no slot. -/
private theorem mem_undeclared_of_leftOut
    (hown : ∀ slot ∈ model.slots, payload.get? slot.target = none →
      payload.given? slot.field = none)
    (hf : f ∈ fields) (hleft : f ∉ model.slots) {v : Argument}
    (hv : payload.given? f.target = some v) : (f.target, v) ∈ model.undeclared payload := by
  have hget := hv
  rw [Arguments.given?_eq_filter, Option.filter_eq_some_iff,
    Fields.get?_eq_some_iff hdistinct] at hget
  refine List.mem_filter.mpr ⟨List.mem_filter.mpr ⟨hget.1, decide_eq_true fun hused ↦ ?_⟩, hget.2⟩
  obtain ⟨slot, hslot, hfound⟩ := List.mem_filterMap.mp hused
  have hexposed := (slot_exposed hfields hslots hnames hbody hslot).2
  rw [Slot.find?_eq, hexposed] at hfound
  cases htarget : payload.get? slot.target with
  | some w =>
    rw [htarget] at hfound
    have heq := Option.some.inj hfound
    exact hleft (eq_of_target hfields hslots hnames hbody hslot hf heq ▸ hslot)
  | none =>
    have hnone := hown slot hslot htarget
    rw [htarget, Option.map_none, Option.none_or, Option.map_map, Option.map_eq_some_iff] at hfound
    obtain ⟨w, -, heq⟩ := hfound
    have heq : slot.field = f.target := heq
    rw [heq, hv] at hnone
    cases hnone

variable (hkeys : ∀ name ∈ payload.names, ∃ type required, tool.Declares name type required)
  (haccepted : model.arguments (.object payload) = .ok args)

include haccepted

/-- A slot that has its own argument does not fall back on its field. -/
private theorem given?_field_of_ownValues (hown : tool.OwnValues payload args)
    (hslot : slot ∈ model.slots) (hmissing : payload.get? slot.target = none) :
    payload.given? slot.field = none := by
  have hexposed := (slot_exposed hfields hslots hnames hbody hslot).2
  cases hfield : payload.given? slot.field with
  | none => rfl
  | some v =>
    have hgiven : slot.given? payload = some v := by
      rw [Slot.given?_of_get?_field (by rw [hexposed, hmissing]),
        ← Arguments.given?_eq_filter, hfield]
    have hfit := (arguments_ok_iff.mp haccepted).1.fits slot hslot
    obtain ⟨w, _, hvalue⟩ := hfit.exists_value hgiven
    have harg := (get?_arguments_iff hfields hslots hnames hbody hdistinct haccepted slot.target
      w).mpr (.inl ⟨slot, hslot, rfl, hvalue⟩)
    have hname := hown.names slot.target
    rw [harg, Arguments.given?_eq_filter, hmissing] at hname
    cases hname

/-- A field that is left out has its own argument only as that is given. -/
private theorem isMet_of_ownValues (hown : tool.OwnValues payload args) (hf : f ∈ fields)
    (hleft : f ∉ model.slots) : f.IsMet payload where
  required hrequired :=
    hown.required f.target f.type ((declares_iff hfields).mpr ⟨f, hf, rfl, rfl, hrequired⟩)
  value v hv := by
    obtain ⟨w, hread, hw⟩ := hown.values f.target f.type f.required v
      ((declares_iff hfields).mpr ⟨f, hf, rfl, rfl, rfl⟩) hv
    rcases (get?_arguments_iff hfields hslots hnames hbody hdistinct haccepted f.target w).mp hw
      with ⟨slot, hslot, htarget, -⟩ | hundeclared
    · exact absurd (eq_of_target hfields hslots hnames hbody hslot hf htarget ▸ hslot) hleft
    · rw [given?_of_mem_undeclared hdistinct hundeclared, Option.some.injEq] at hv
      rwa [hv] at hread

omit hdistinct haccepted in
/-- Slots that do not fall back on their fields have what is given under their targets. -/
private theorem given?_of_own
    (hown : ∀ slot ∈ model.slots, payload.get? slot.target = none →
      payload.given? slot.field = none)
    (hslot : slot ∈ model.slots) : slot.given? payload = payload.given? slot.target := by
  have hexposed := (slot_exposed hfields hslots hnames hbody hslot).2
  rw [← hexposed, given?_eq_iff, hexposed]
  exact hown slot hslot

/-- What is given for an argument is read and becomes its value. -/
private theorem value_of_given
    (hown : ∀ slot ∈ model.slots, payload.get? slot.target = none →
      payload.given? slot.field = none)
    (hmet : ∀ f ∈ fields, f ∉ model.slots → f.IsMet payload) {name : Text} {type : SlotType}
    {required : Bool} {v : Argument} (hdeclared : tool.Declares name type required)
    (hv : payload.given? name = some v) :
    ∃ w, type.read v = .ok w ∧ args.get? name = some w := by
  have hargs := get?_arguments_iff hfields hslots hnames hbody hdistinct haccepted
  obtain ⟨f, hf, rfl, rfl, rfl⟩ := (declares_iff hfields).mp hdeclared
  by_cases hslot : f ∈ model.slots
  · rw [← given?_of_own hfields hslots hnames hbody hown hslot] at hv
    obtain ⟨w, hread, hvalue⟩ := ((arguments_ok_iff.mp haccepted).1.fits f hslot).exists_value hv
    exact ⟨w, hread, (hargs f.target w).mpr (.inl ⟨f, hslot, rfl, hvalue⟩)⟩
  · refine ⟨v, (hmet f hf hslot).value v hv, (hargs f.target v).mpr (.inr ?_)⟩
    exact mem_undeclared_of_leftOut hfields hslots hnames hbody hdistinct hown hf hslot hv

include hkeys

/-- Slots that have what is given under their own names make the arguments, with what does for the
fields that are left out. -/
private theorem ownValues_of_given
    (hown : ∀ slot ∈ model.slots, payload.get? slot.target = none →
      payload.given? slot.field = none)
    (hmet : ∀ f ∈ fields, f ∉ model.slots → f.IsMet payload) : tool.OwnValues payload args where
  distinct := (arguments_ok_iff.mp haccepted).2 ▸ Fields.distinct_ofList _
  names name := by
    rw [Bool.eq_iff_iff, Option.isSome_iff_exists, Option.isSome_iff_exists]
    constructor
    · rintro ⟨w, hw⟩
      rcases (get?_arguments_iff hfields hslots hnames hbody hdistinct haccepted name w).mp hw with
        ⟨slot, hslot, rfl, hvalue⟩ | hundeclared
      · obtain ⟨v, hv, _⟩ := Slot.value?_eq_some_iff.mp hvalue
        exact ⟨v, by rw [← given?_of_own hfields hslots hnames hbody hown hslot, hv]⟩
      · exact ⟨w, given?_of_mem_undeclared hdistinct hundeclared⟩
    · rintro ⟨v, hv⟩
      have hmem : name ∈ payload.names := by
        rw [Arguments.given?_eq_filter, Option.filter_eq_some_iff] at hv
        exact List.mem_map.mpr ⟨_, Fields.mem_of_get? hv.1, rfl⟩
      obtain ⟨type, required, hdeclared⟩ := hkeys name hmem
      obtain ⟨w, _, hw⟩ := value_of_given hfields hslots hnames hbody hdistinct haccepted hown hmet
        hdeclared hv
      exact ⟨w, hw⟩
  values _ _ _ _ hdeclared hv :=
    value_of_given hfields hslots hnames hbody hdistinct haccepted hown hmet hdeclared hv
  required name type hdeclared := by
    obtain ⟨f, hf, rfl, rfl, hrequired⟩ := (declares_iff hfields).mp hdeclared
    by_cases hslot : f ∈ model.slots
    · have hfit := (arguments_ok_iff.mp haccepted).1.fits f hslot
      rw [Slot.Fits, given?_of_own hfields hslots hnames hbody hown hslot] at hfit
      cases hv : payload.given? f.target with
      | some v => rfl
      | none =>
        rw [hv, hrequired] at hfit
        cases hfit
    · exact (hmet f hf hslot).required hrequired

end Given

/-- A field that is named like no other argument is given nothing but its own one. -/
private theorem given?_field_of_apart (hall : definitions tool = .ok model.slots)
    (hkeys : ∀ name ∈ payload.names, ∃ type required, tool.Declares name type required)
    (hapart : ∀ other ∈ model.slots, slot.field = other.target → slot = other)
    (hmissing : payload.get? slot.target = none) : payload.given? slot.field = none := by
  rw [Arguments.given?_eq_filter]
  cases hfield : payload.get? slot.field with
  | none => rfl
  | some v =>
    -- The field would be the name of an argument, and so the slot's own one.
    have hmem : slot.field ∈ payload.names := List.mem_map.mpr ⟨_, Fields.mem_of_get? hfield, rfl⟩
    obtain ⟨type, required, hdeclared⟩ := hkeys slot.field hmem
    obtain ⟨other, hother, htarget, _⟩ := (declares_iff hall).mp hdeclared
    have heq := hapart other hother htarget.symm
    rw [← htarget, ← heq, hmissing] at hfield
    cases hfield

/-- Where no two arguments share a name, the arguments are those given under their own names, with
their own values, and those that are required are among them, exactly when no slot that is not
given under its own name is given under that of its field, and what is given does for the fields
that the model leaves out. Such a slot cannot be where no field is named like another argument, and
such a field not where the model has all that it is asked for. -/
theorem own_values_iff (tool : Tool) (model : InputModel) (payload args : Arguments)
    (hnames : (tool.parameters.map (·.name)).Nodup)
    (hbody : tool.hasBody = true → ∀ p ∈ tool.parameters, p.name ≠ "body")
    (hmodel : ofTool tool = .ok model) (hdistinct : payload.Distinct)
    (hkeys : ∀ name ∈ payload.names, ∃ type required, tool.Declares name type required)
    (haccepted : model.arguments (.object payload) = .ok args) :
    (tool.OwnValues payload args ↔
      (∀ slot ∈ model.slots, payload.get? slot.target = none → payload.given? slot.field = none) ∧
        ∀ f, LeftOut tool f → f.IsMet payload) ∧
    (definitions tool = .ok model.slots →
      (∀ slot ∈ model.slots, ∀ other ∈ model.slots, slot.field = other.target → slot = other) →
      tool.OwnValues payload args) := by
  obtain ⟨fields, hfields, hslots⟩ := definitions_of_ofTool hmodel
  have hleft : ∀ f, LeftOut tool f ↔ f ∈ fields ∧ f ∉ model.slots := fun _ ↦
    leftOut_iff hfields hslots
  have hiff : tool.OwnValues payload args ↔
      (∀ slot ∈ model.slots, payload.get? slot.target = none → payload.given? slot.field = none) ∧
        ∀ f, LeftOut tool f → f.IsMet payload := by
    constructor
    · intro hown
      constructor
      · intro slot hslot hmissing
        exact given?_field_of_ownValues hfields hslots hnames hbody hdistinct haccepted hown hslot
          hmissing
      · intro f hf
        obtain ⟨hf, hmissing⟩ := (hleft f).mp hf
        exact isMet_of_ownValues hfields hslots hnames hbody hdistinct haccepted hown hf hmissing
    · rintro ⟨hown, hmet⟩
      exact ownValues_of_given hfields hslots hnames hbody hdistinct hkeys haccepted hown
        fun f hf hmissing ↦ hmet f ((hleft f).mpr ⟨hf, hmissing⟩)
  refine ⟨hiff, fun hall hapart ↦ hiff.mpr ⟨fun slot hslot hmissing ↦ ?_, fun f hf ↦ ?_⟩⟩
  · exact given?_field_of_apart hall hkeys (hapart slot hslot) hmissing
  · obtain ⟨hf, hmissing⟩ := (hleft f).mp hf
    rw [hfields, Except.ok.injEq] at hall
    exact absurd (hall ▸ hf) hmissing

/-- An optional parameter of a query. -/
def inQuery (name sanitizedName : Text) : Parameter where
  name := name
  sanitizedName := sanitizedName
  location := Location.query

/-- A tool with two parameters whose fields have one name. -/
def users : Tool where
  id := "getUsers"
  description := "Users"
  path := "/users"
  method := "GET"
  parameters := [inQuery "user-id" "user_id", inQuery "user_id" "user_id"]

/-- The model of its arguments. -/
def usersModel : InputModel where
  name := "getUsersInput"
  slots := [⟨"user_id", some "user-id", "user-id", .string, false, none⟩,
    ⟨"user_id_2", some "user_id", "user_id", .string, false, none⟩]

private theorem users_declares {name : Text}
    (h : name ∈ users.parameters.map (·.name)) :
    ∃ type required, users.Declares name type required := by
  obtain ⟨p, hp, rfl⟩ := List.mem_map.mp h
  rcases List.mem_pair.mp hp with rfl | rfl
  · exact ⟨.string, _, .parameter hp rfl⟩
  · exact ⟨.string, _, .parameter hp rfl⟩

/-- Both parameters have their own values when both are given. -/
theorem own_values_users :
    (users.parameters.map (·.name)).Nodup ∧ ofTool users = .ok usersModel ∧
      users.OwnValues [("user_id", .string "h"), ("user-id", .string "g")]
        [("user-id", .string "g"), ("user_id", .string "h")] := by
  have hnames : (users.parameters.map (·.name)).Nodup := by decide +kernel
  refine ⟨hnames, rfl, ?_⟩
  apply (own_values_iff users usersModel _ _ hnames (by decide) rfl (by decide +kernel) ?_
    rfl).1.mpr
  · constructor
    · intro slot hslot hmissing
      rcases List.mem_pair.mp hslot with rfl | rfl
      · cases hmissing
      · cases hmissing
    · rintro f ⟨fields, hfields, hf, hname⟩
      cases hfields
      rcases List.mem_pair.mp hf with rfl | rfl
      · cases hname
      · cases hname
  · intro name hname
    apply users_declares
    rcases List.mem_pair.mp hname with rfl | rfl
    · decide +kernel
    · decide +kernel

/-- The value given for the second parameter fills the first one too. -/
theorem value_fills_another :
    (users.parameters.map (·.name)).Nodup ∧ ofTool users = .ok usersModel ∧
      usersModel.arguments (.object [("user_id", .string "h")] : Argument) =
        .ok [("user-id", .string "h"), ("user_id", .string "h")] ∧
      ¬users.OwnValues [("user_id", .string "h")]
        [("user-id", .string "h"), ("user_id", .string "h")] := by
  refine ⟨by decide +kernel, rfl, rfl, fun hown ↦ ?_⟩
  exact absurd (hown.names "user-id") (by decide +kernel)

end InputModel

end ApiTools
