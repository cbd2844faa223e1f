import Mathlib.Data.List.Forall2
import ApiTools.Proofs.Fields
import ApiTools.Proofs.FreshName
import ApiTools.Proofs.Outcome
import ApiTools.Tool.InputModel

/-!
# Slots of input models

How the fields that a model is asked for come about, one parameter after the other. Fields and
exposed names are fresh at each step, so they are distinct in the end. A model has slots for them in
the same order, unless it refuses one of them for its name, and none for a field of the name that it
has for its settings (`InputModel.ofTool_ok_iff`).
-/

namespace ApiTools

/-- Whatever is in the first of two lists that correspond stands opposite something. -/
theorem exists_mem_zip {α β : Type} {R : α → β → Prop} {l : List α} {m : List β}
    (h : List.Forall₂ R l m) {a : α} (ha : a ∈ l) : ∃ b, (a, b) ∈ l.zip m := by
  induction h with
  | nil => cases ha
  | cons _ _ ih =>
    rcases List.mem_cons.mp ha with rfl | ha
    · exact ⟨_, List.mem_cons_self⟩
    · obtain ⟨b, hb⟩ := ih ha
      exact ⟨b, List.mem_cons_of_mem _ hb⟩

/-- A slot that is made for a parameter. -/
structure Slot.IsFor (slot : Slot) (p : Parameter) : Prop where
  target : slot.target = p.name
  type : SlotType.ofParameter p = .ok slot.type
  required : slot.required = p.required
  description : slot.description = p.description

namespace InputModel

/-- The slots of some parameters, made with some names in use for fields and by callers. Whether a
slot has its parameter's name or only that of its field, callers use one name more afterwards. -/
inductive Allocation : (fields exposed : List Text) → List Parameter → List Slot → Prop
  | nil (fields exposed : List Text) : Allocation fields exposed [] []
  | cons {fields exposed : List Text} {p : Parameter} {slot : Slot} {rest : List Parameter}
      {more : List Slot} (isFor : slot.IsFor p)
      (field : slot.field =
        Identifier.unique (Identifier.fieldName p.sanitizedName) (fields ++ exposed))
      (otherName : slot.otherName = if p.name ∈ exposed then none else some p.name)
      (others : Allocation (slot.field :: fields) (slot.exposed :: exposed) rest more) :
      Allocation fields exposed (p :: rest) (slot :: more)

section Allocation

variable {fields exposed : List Text} {ps : List Parameter} {slots : List Slot} {slot : Slot}

/-- The slot of a parameter, made with some names in use for fields and by callers. -/
def slotOf (p : Parameter) (type : SlotType) (fields exposed : List Text) : Slot where
  field := Identifier.unique (Identifier.fieldName p.sanitizedName) (fields ++ exposed)
  otherName := if p.name ∈ exposed then none else some p.name
  target := p.name
  type := type
  required := p.required
  description := p.description

/-- The first slot is made, and both of its names are in use for the others. -/
theorem parameterSlots_cons (p : Parameter) (rest : List Parameter) (fields exposed : List Text) :
    parameterSlots (p :: rest) fields exposed = (SlotType.ofParameter p).bind fun type ↦
      let slot := slotOf p type fields exposed
      (parameterSlots rest (slot.field :: fields) (slot.exposed :: exposed)).map (slot :: ·) := by
  rw [parameterSlots]
  cases SlotType.ofParameter p with
  | error e => rfl
  | ok type =>
    by_cases hmem : p.name ∈ exposed
    · simp only [hmem, if_true, slotOf, Slot.exposed, Option.getD_none, bind, Except.bind]
      rfl
    · simp only [hmem, if_false, slotOf, Slot.exposed, Option.getD_some, bind, Except.bind]
      rfl

/-- The slots that are made are an allocation. -/
theorem allocation_of_parameterSlots (h : parameterSlots ps fields exposed = .ok slots) :
    Allocation fields exposed ps slots := by
  induction ps generalizing fields exposed slots with
  | nil =>
    rw [parameterSlots, Except.ok.injEq] at h
    rw [← h]
    exact .nil fields exposed
  | cons p rest ih =>
    rw [parameterSlots_cons] at h
    obtain ⟨type, htype, h⟩ := Outcome.bind_ok_iff.mp h
    obtain ⟨more, hmore, rfl⟩ := Outcome.map_ok_iff.mp h
    exact .cons ⟨rfl, htype, rfl, rfl⟩ rfl rfl (ih hmore)

/-- Slots can be made for parameters of known types. -/
theorem exists_parameterSlots (htypes : ∀ p ∈ ps, ∃ type, SlotType.ofParameter p = .ok type)
    (fields exposed : List Text) : ∃ slots, parameterSlots ps fields exposed = .ok slots := by
  induction ps generalizing fields exposed with
  | nil => exact ⟨[], rfl⟩
  | cons p rest ih =>
    obtain ⟨type, htype⟩ := htypes p List.mem_cons_self
    let slot := slotOf p type fields exposed
    obtain ⟨more, hmore⟩ := ih (fun q hq ↦ htypes q (List.mem_cons_of_mem p hq))
      (slot.field :: fields) (slot.exposed :: exposed)
    refine ⟨slot :: more, ?_⟩
    rw [parameterSlots_cons, htype]
    simp only [Except.bind, slot, hmore, Except.map]

/-- Parameters and slots correspond in order. -/
theorem Allocation.forall₂_isFor (h : Allocation fields exposed ps slots) :
    List.Forall₂ (fun p slot ↦ slot.IsFor p) ps slots := by
  induction h with
  | nil => exact .nil
  | cons isFor _ _ _ ih => exact .cons isFor ih

/-- Every parameter has a slot. -/
theorem Allocation.exists_slot (h : Allocation fields exposed ps slots) {p : Parameter}
    (hp : p ∈ ps) : ∃ slot, (p, slot) ∈ ps.zip slots :=
  exists_mem_zip h.forall₂_isFor hp

/-- Every slot has a parameter. -/
theorem Allocation.exists_parameter (h : Allocation fields exposed ps slots)
    (hslot : slot ∈ slots) : ∃ p, (p, slot) ∈ ps.zip slots := by
  induction h with
  | nil => cases hslot
  | cons _ _ _ _ ih =>
    rcases List.mem_cons.mp hslot with rfl | hslot
    · exact ⟨_, List.mem_cons_self⟩
    · obtain ⟨p, hp⟩ := ih hslot
      exact ⟨p, List.mem_cons_of_mem _ hp⟩

/-- The slot in the place of a parameter is made for it. -/
theorem Allocation.isFor_of_mem_zip (h : Allocation fields exposed ps slots) {p : Parameter}
    (hzip : (p, slot) ∈ ps.zip slots) : slot.IsFor p :=
  List.forall₂_zip h.forall₂_isFor hzip

private theorem field_fresh {p : Parameter} (hfield : slot.field =
      Identifier.unique (Identifier.fieldName p.sanitizedName) (fields ++ exposed)) :
    slot.field ∉ fields ∧ slot.field ∉ exposed := by
  have hfresh := Identifier.unique_notMem (Identifier.fieldName p.sanitizedName)
    (fields ++ exposed)
  rw [← hfield, List.mem_append, not_or] at hfresh
  exact hfresh

private theorem exposed_fresh {p : Parameter} (hfield : slot.field =
      Identifier.unique (Identifier.fieldName p.sanitizedName) (fields ++ exposed))
    (hother : slot.otherName = if p.name ∈ exposed then none else some p.name) :
    slot.exposed ∉ exposed := by
  rw [Slot.exposed, hother]
  split
  · exact (field_fresh hfield).2
  · next hmem => exact hmem

/-- No field has a name that was in use before. -/
theorem Allocation.field_notMem (h : Allocation fields exposed ps slots) (hslot : slot ∈ slots) :
    slot.field ∉ fields ∧ slot.field ∉ exposed := by
  induction h with
  | nil => cases hslot
  | cons _ field _ _ ih =>
    rcases List.mem_cons.mp hslot with rfl | hslot
    · exact field_fresh field
    · have hlater := ih hslot
      simp only [List.mem_cons, not_or] at hlater
      exact ⟨hlater.1.2, hlater.2.2⟩

/-- Fields have distinct names. -/
theorem Allocation.fields_nodup (h : Allocation fields exposed ps slots) :
    (slots.map Slot.field).Nodup := by
  induction h with
  | nil => exact List.nodup_nil
  | cons _ _ _ others ih =>
    rw [List.map_cons, List.nodup_cons]
    refine ⟨fun hmem ↦ ?_, ih⟩
    obtain ⟨later, hlater, heq⟩ := List.mem_map.mp hmem
    exact (others.field_notMem hlater).1 (heq ▸ List.mem_cons_self)

/-- No slot is exposed under a name that was in use before. -/
theorem Allocation.exposed_notMem (h : Allocation fields exposed ps slots) (hslot : slot ∈ slots) :
    slot.exposed ∉ exposed := by
  induction h with
  | nil => cases hslot
  | cons _ field otherName _ ih =>
    rcases List.mem_cons.mp hslot with rfl | hslot
    · exact exposed_fresh field otherName
    · exact fun hmem ↦ ih hslot (List.mem_cons_of_mem _ hmem)

/-- Slots are exposed under distinct names. -/
theorem Allocation.exposed_nodup (h : Allocation fields exposed ps slots) :
    (slots.map Slot.exposed).Nodup := by
  induction h with
  | nil => exact List.nodup_nil
  | cons _ _ _ others ih =>
    rw [List.map_cons, List.nodup_cons]
    refine ⟨fun hmem ↦ ?_, ih⟩
    obtain ⟨later, hlater, heq⟩ := List.mem_map.mp hmem
    exact others.exposed_notMem hlater (heq ▸ List.mem_cons_self)

/-- Parameters of distinct names, none of them in use, are exposed under their names. -/
theorem Allocation.otherName_eq (h : Allocation fields exposed ps slots)
    (hnames : (ps.map (·.name)).Nodup) (hunused : ∀ p ∈ ps, p.name ∉ exposed)
    (hslot : slot ∈ slots) : slot.otherName = some slot.target := by
  induction h with
  | nil => cases hslot
  | @cons fields exposed p first rest more isFor _ otherName _ ih =>
    rw [if_neg (hunused p List.mem_cons_self)] at otherName
    rcases List.mem_cons.mp hslot with rfl | hslot
    · rw [otherName, isFor.target]
    · rw [List.map_cons, List.nodup_cons] at hnames
      refine ih hnames.2 (fun q hq hmem ↦ ?_) hslot
      rcases List.mem_cons.mp hmem with heq | hmem
      · rw [Slot.exposed, otherName, Option.getD_some] at heq
        exact hnames.1 (List.mem_map.mpr ⟨q, hq, heq⟩)
      · exact hunused q (List.mem_cons_of_mem p hq) hmem

end Allocation

section Definitions

variable {tool : Tool} {fields : List Slot} {slot : Slot}

/-- The name in use before any parameter has a slot: that of the body, if there is one. -/
def bodyNames (tool : Tool) : List Text := if tool.hasBody then ["body"] else []

/-- The fields asked for are those of the parameters, then that of the body. -/
theorem allocation_of_definitions (h : definitions tool = .ok fields) :
    ∃ own, fields = own ++ bodySlots tool ∧ Allocation [] (bodyNames tool) tool.parameters own := by
  obtain ⟨own, hown, h⟩ := Outcome.bind_ok_iff.mp h
  cases h
  exact ⟨own, rfl, allocation_of_parameterSlots hown⟩

/-- Fields can be asked for if the parameters are of known types. -/
theorem exists_definitions
    (htypes : ∀ p ∈ tool.parameters, ∃ type, SlotType.ofParameter p = .ok type) :
    ∃ fields, definitions tool = .ok fields := by
  obtain ⟨own, hown⟩ := exists_parameterSlots htypes [] (bodyNames tool)
  exact ⟨_, Outcome.bind_ok_iff.mpr ⟨own, hown, rfl⟩⟩

/-- Parameters and fields correspond in order, before the field of the body. -/
theorem isFor_of_mem_zip (h : definitions tool = .ok fields) {p : Parameter}
    (hzip : (p, slot) ∈ tool.parameters.zip fields) :
    p ∈ tool.parameters ∧ slot ∈ fields ∧ slot.IsFor p := by
  obtain ⟨own, hfields, halloc⟩ := allocation_of_definitions h
  refine ⟨(List.of_mem_zip hzip).1, (List.of_mem_zip hzip).2, halloc.isFor_of_mem_zip ?_⟩
  have hlength := halloc.forall₂_isFor.length_eq
  have happend : (tool.parameters ++ []).zip (own ++ bodySlots tool) =
      tool.parameters.zip own ++ [].zip (bodySlots tool) := List.zip_append hlength
  rw [List.append_nil, List.zip_nil_left, List.append_nil] at happend
  rwa [hfields, happend] at hzip

/-- A body has one slot, under a name of its own. -/
theorem mem_bodySlots : slot ∈ bodySlots tool ↔
    tool.hasBody = true ∧
      slot = ⟨"body", none, "body", .body, tool.bodyRequired, tool.bodyDescription⟩ := by
  rw [bodySlots]
  split
  · next h => simp [h]
  · next h => simp [h]

/-- The targets of the fields are the names of the parameters and that of the body. -/
theorem targets_eq (h : definitions tool = .ok fields) :
    fields.map Slot.target = tool.parameters.map (·.name) ++ bodyNames tool := by
  obtain ⟨own, rfl, halloc⟩ := allocation_of_definitions h
  have hown : own.map Slot.target = tool.parameters.map (·.name) := by
    have hfor := halloc.forall₂_isFor
    rw [← List.forall₂_eq_eq_eq, List.forall₂_map_left_iff, List.forall₂_map_right_iff]
    exact hfor.flip.imp fun _ _ hslot ↦ hslot.target
  rw [List.map_append, hown, bodySlots, bodyNames]
  split <;> rfl

/-- Fields have distinct names. -/
theorem definitions_fields_nodup (h : definitions tool = .ok fields) :
    (fields.map Slot.field).Nodup := by
  obtain ⟨own, rfl, halloc⟩ := allocation_of_definitions h
  rw [List.map_append, List.nodup_append]
  refine ⟨halloc.fields_nodup, ?_, ?_⟩
  · rw [bodySlots]
    split <;> simp
  · intro name hname other hother heq
    obtain ⟨slot, hslot, rfl⟩ := List.mem_map.mp hname
    obtain ⟨body, hbody, rfl⟩ := List.mem_map.mp hother
    obtain ⟨hhas, rfl⟩ := mem_bodySlots.mp hbody
    exact (halloc.field_notMem hslot).2 (by simp [bodyNames, hhas, heq])

/-- Fields are exposed under distinct names. -/
theorem definitions_exposed_nodup (h : definitions tool = .ok fields) :
    (fields.map Slot.exposed).Nodup := by
  obtain ⟨own, rfl, halloc⟩ := allocation_of_definitions h
  rw [List.map_append, List.nodup_append]
  refine ⟨halloc.exposed_nodup, ?_, ?_⟩
  · rw [bodySlots]
    split <;> simp
  · intro name hname other hother heq
    obtain ⟨slot, hslot, rfl⟩ := List.mem_map.mp hname
    obtain ⟨body, hbody, rfl⟩ := List.mem_map.mp hother
    obtain ⟨hhas, rfl⟩ := mem_bodySlots.mp hbody
    exact halloc.exposed_notMem hslot (by rw [heq]; simp [bodyNames, hhas, Slot.exposed])

end Definitions

section Model

variable {tool : Tool} {model : InputModel} {fields slots : List Slot} {slot : Slot}

/-- A field that does not stand in the way of a model. One under the name of the settings is left
out, whatever its texts are. -/
structure IsAdmitted (f : Slot) : Prop where
  settings : f.field ≠ formerSettingsName
  method : f.field ∉ methodNames
  clean : f.field ≠ settingsName → ∀ t ∈ f.texts, t.IsClean

/-- Fields are kept in order. -/
theorem kept_sublist (fields : List Slot) : (kept fields).Sublist fields := List.filter_sublist

/-- The fields with other names than that of the settings are kept. -/
theorem mem_kept : slot ∈ kept fields ↔ slot ∈ fields ∧ slot.field ≠ settingsName := by
  rw [kept, List.mem_filter, decide_eq_true_eq]

/-- Nothing is left out where no field has the name of the settings. -/
theorem kept_eq_self (h : ∀ f ∈ fields, f.field ≠ settingsName) : kept fields = fields := by
  rw [kept, List.filter_eq_self]
  exact fun f hf ↦ decide_eq_true (h f hf)

/-- A model has slots for the fields that it is asked for, but for one of the name of its settings,
if none of them stands in its way. -/
theorem slotsFor_ok_iff :
    slotsFor fields = .ok slots ↔ (∀ f ∈ fields, IsAdmitted f) ∧ slots = kept fields := by
  have hclean : (kept fields).any (fun f ↦ f.texts.any (·.any CodePoint.isSurrogate)) = false ↔
      ∀ f ∈ fields, f.field ≠ settingsName → ∀ t ∈ f.texts, t.IsClean := by
    simp only [List.any_eq_false, mem_kept, Text.any_isSurrogate_iff, not_not, and_imp,
      Bool.not_eq_true]
  rw [slotsFor]
  split
  · next hsettings =>
    obtain ⟨f, hf, hname⟩ := List.any_eq_true.mp hsettings
    exact iff_of_false nofun fun h ↦ (h.1 f hf).settings (of_decide_eq_true hname)
  next hsettings =>
  split
  · next f hfind =>
    have hmethod := List.find?_some hfind
    rw [decide_eq_true_eq] at hmethod
    exact iff_of_false nofun fun h ↦ (h.1 f (List.mem_of_find?_eq_some hfind)).method hmethod
  next hmethods =>
  split
  · next hdirty =>
    refine iff_of_false nofun fun h ↦ ?_
    rw [hclean.mpr fun f hf ↦ (h.1 f hf).clean] at hdirty
    cases hdirty
  · next hnone =>
    rw [Except.ok.injEq, eq_comm, iff_and_self]
    refine fun _ f hf ↦ ⟨fun hname ↦ ?_, fun hname ↦ ?_, ?_⟩
    · exact hsettings (List.any_eq_true.mpr ⟨f, hf, decide_eq_true hname⟩)
    · exact List.find?_eq_none.mp hmethods f hf (decide_eq_true hname)
    · exact hclean.mp (Bool.eq_false_iff.mpr hnone) f hf

/-- A tool has a model exactly if fields can be asked for that do not stand in its way. -/
theorem ofTool_ok_iff : ofTool tool = .ok model ↔
    ∃ fields, definitions tool = .ok fields ∧ (∀ f ∈ fields, IsAdmitted f) ∧
      model = ⟨Identifier.sanitizeStrictly tool.id ++ "Input", kept fields⟩ := by
  simp only [ofTool, Outcome.bind_ok_iff, slotsFor_ok_iff]
  constructor
  · rintro ⟨fields, hfields, _, ⟨hadmitted, rfl⟩, h⟩
    cases h
    exact ⟨fields, hfields, hadmitted, rfl⟩
  · rintro ⟨fields, hfields, hadmitted, rfl⟩
    exact ⟨fields, hfields, _, ⟨hadmitted, rfl⟩, rfl⟩

/-- The slots of a model are fields that were asked for. -/
theorem definitions_of_ofTool (h : ofTool tool = .ok model) :
    ∃ fields, definitions tool = .ok fields ∧ model.slots = kept fields := by
  obtain ⟨fields, hfields, -, rfl⟩ := ofTool_ok_iff.mp h
  exact ⟨fields, hfields, rfl⟩

/-- The slots of a model have distinct fields. -/
theorem fields_nodup (h : ofTool tool = .ok model) : (model.slots.map Slot.field).Nodup := by
  obtain ⟨fields, hfields, hslots⟩ := definitions_of_ofTool h
  rw [hslots]
  exact (definitions_fields_nodup hfields).sublist ((kept_sublist fields).map _)

/-- The slots of a model are exposed under distinct names. -/
theorem exposed_nodup (h : ofTool tool = .ok model) : (model.slots.map Slot.exposed).Nodup := by
  obtain ⟨fields, hfields, hslots⟩ := definitions_of_ofTool h
  rw [hslots]
  exact (definitions_exposed_nodup hfields).sublist ((kept_sublist fields).map _)

end Model

end InputModel

end ApiTools
