import ApiTools.Proofs.Collection

/-!
# Names of slots

The name of a field starts neither with an underscore nor with a digit, and a suffix behind it does
not change that. So the model of a tool is asked for one field for each parameter, in order, and one
for the body, with distinct names of that kind, and callers tell them apart too. It has slots for
all of them exactly if none has a name that models keep for themselves and no surrogate stands in
their texts (`InputModel.slots_unambiguous_iff`).
-/

namespace ApiTools

namespace Identifier

/-- A name that is not empty and starts neither with an underscore nor with a digit. -/
def IsFieldName (name : Text) : Prop :=
  ∃ c rest, name = c :: rest ∧ c ≠ CodePoint.ofChar '_' ∧ c.isDigit = false

/-- The name of a field is one with anything behind it. -/
theorem IsFieldName.append {name : Text} (h : IsFieldName name) (t : Text) :
    IsFieldName (name ++ t) := by
  obtain ⟨c, rest, rfl, hc⟩ := h
  exact ⟨c, rest ++ t, rfl, hc⟩

private theorem isFieldName_fieldName (name : Text) : IsFieldName (fieldName name) := by
  have hstem : IsFieldName "param_" := ⟨CodePoint.ofChar 'p', _, rfl, by decide, by decide +kernel⟩
  unfold fieldName
  split
  · exact hstem
  · next c rest =>
    split
    · exact hstem.append _
    · next hstart =>
      rw [not_or, Bool.not_eq_true] at hstart
      exact ⟨c, rest, rfl, hstart⟩

/-- A name stays one of a field when it is made unique. -/
theorem IsFieldName.unique {name : Text} (h : IsFieldName name) (taken : List Text) :
    IsFieldName (unique name taken) := by
  rcases unique_cases name taken with heq | ⟨k, heq⟩
  · rw [heq]
    exact h
  · rw [heq, suffixed]
    exact (h.append _).append _

end Identifier

/-- The slot that is made for the body of a tool. -/
structure Slot.IsForBody (slot : Slot) (tool : Tool) : Prop where
  field : slot.field = "body"
  exposed : slot.exposed = "body"
  target : slot.target = "body"
  required : slot.required = tool.bodyRequired

namespace InputModel

open Identifier (IsFieldName)

/-- Slots of which every argument of a tool has one of its own: those of the parameters in order,
then that of the body if the tool takes one. Neither fields nor exposed names are shared, and the
body's name is its own. -/
structure AreUnambiguousFor (slots : List Slot) (tool : Tool) (own bodies : List Slot) : Prop where
  parts : slots = own ++ bodies
  parameters : List.Forall₂ (fun p slot ↦ Slot.IsFor slot p) tool.parameters own
  bodiless : tool.hasBody = false → bodies = []
  body : tool.hasBody = true → ∃ slot, bodies = [slot] ∧ slot.IsForBody tool
  named : ∀ slot ∈ slots, IsFieldName slot.field
  fields : (slots.map Slot.field).Nodup
  exposed : (slots.map Slot.exposed).Nodup
  reserved : tool.hasBody = true → ∀ slot ∈ own, slot.exposed ≠ "body"

section Names

variable {fields exposed : List Text} {ps : List Parameter} {slots : List Slot} {slot : Slot}

private theorem Allocation.isFieldName (h : Allocation fields exposed ps slots)
    (hslot : slot ∈ slots) :
    IsFieldName slot.field := by
  induction h with
  | nil => cases hslot
  | cons _ field _ _ ih =>
    rcases List.mem_cons.mp hslot with rfl | hslot
    · rw [field]
      exact (Identifier.isFieldName_fieldName _).unique _
    · exact ih hslot

/-- The parameters of slots are of known types. -/
theorem Allocation.primitiveType_mem (h : Allocation fields exposed ps slots) {p : Parameter}
    (hp : p ∈ ps) : p.primitiveType ∈ primitiveTypes := by
  obtain ⟨slot, hzip⟩ := h.exists_slot hp
  exact p.exists_slotType_iff.mp ⟨slot.type, (h.isFor_of_mem_zip hzip).type⟩

end Names

section Model

variable {tool : Tool} {fields slots own bodies : List Slot}

private theorem isForBody_of_mem_bodySlots {slot : Slot} (h : slot ∈ bodySlots tool) :
    slot.IsForBody tool := by
  obtain ⟨-, rfl⟩ := mem_bodySlots.mp h
  exact ⟨rfl, rfl, rfl, rfl⟩

/-- The fields that a model is asked for are one of its own for every argument. -/
theorem areUnambiguousFor_of_definitions (h : definitions tool = .ok fields) :
    ∃ own, AreUnambiguousFor fields tool own (bodySlots tool) := by
  obtain ⟨own, hfields, halloc⟩ := allocation_of_definitions h
  refine ⟨own, hfields, halloc.forall₂_isFor, ?_, ?_, ?_, definitions_fields_nodup h,
    definitions_exposed_nodup h, ?_⟩
  · intro hbody
    rw [bodySlots, hbody]
    rfl
  · intro hbody
    have hone : ∃ slot, bodySlots tool = [slot] := by
      rw [bodySlots, hbody]
      exact ⟨_, rfl⟩
    obtain ⟨slot, hslot⟩ := hone
    exact ⟨slot, hslot, isForBody_of_mem_bodySlots (by rw [hslot]; exact List.mem_cons_self)⟩
  · intro slot hslot
    rw [hfields, List.mem_append] at hslot
    rcases hslot with hslot | hslot
    · exact halloc.isFieldName hslot
    · rw [(isForBody_of_mem_bodySlots hslot).field]
      exact ⟨CodePoint.ofChar 'b', _, rfl, by decide, by decide +kernel⟩
  · intro hbody slot hslot heq
    apply halloc.exposed_notMem hslot
    rw [heq, bodyNames, hbody]
    exact List.mem_cons_self

/-- There is a slot for each parameter, and one for the body if there is one. -/
theorem AreUnambiguousFor.length_eq (h : AreUnambiguousFor slots tool own bodies) :
    slots.length = tool.parameters.length + (bodyNames tool).length := by
  rw [h.parts, List.length_append, h.parameters.length_eq, bodyNames]
  cases hbody : tool.hasBody with
  | false =>
    rw [h.bodiless hbody, if_neg Bool.false_ne_true]
    rfl
  | true =>
    obtain ⟨slot, hslot, -⟩ := h.body hbody
    rw [hslot, if_pos rfl]
    rfl

/-- Where every argument has a slot no field is left out. -/
theorem AreUnambiguousFor.forall_ne (h : AreUnambiguousFor (kept fields) tool own bodies)
    (hfields : definitions tool = .ok fields) : ∀ f ∈ fields, f.field ≠ settingsName := by
  obtain ⟨all, hall⟩ := areUnambiguousFor_of_definitions hfields
  have heq : kept fields = fields :=
    (kept_sublist fields).eq_of_length (h.length_eq.trans hall.length_eq.symm)
  intro f hf
  rw [← heq] at hf
  exact (mem_kept.mp hf).2

/-- The fields that the model of a tool is asked for are one of its own for every argument of the
tool, whatever the names of the parameters are. The model has slots for all of them exactly if the
types of the parameters are known and no field has a name that models keep for themselves, or a
surrogate in its texts. -/
theorem slots_unambiguous_iff (tool : Tool) :
    (∀ fields, definitions tool = .ok fields →
      ∃ own bodies, AreUnambiguousFor fields tool own bodies) ∧
    ((∃ model own bodies, ofTool tool = .ok model ∧
        AreUnambiguousFor model.slots tool own bodies) ↔
      (∀ p ∈ tool.parameters, p.primitiveType ∈ primitiveTypes) ∧
        ∀ fields, definitions tool = .ok fields →
          ∀ f ∈ fields, IsAdmitted f ∧ f.field ≠ settingsName) := by
  refine ⟨fun fields hfields ↦ ?_, ?_⟩
  · obtain ⟨own, hown⟩ := areUnambiguousFor_of_definitions hfields
    exact ⟨own, bodySlots tool, hown⟩
  constructor
  · rintro ⟨model, own, bodies, hmodel, hapart⟩
    obtain ⟨fields, hfields, hadmitted, rfl⟩ := ofTool_ok_iff.mp hmodel
    obtain ⟨slots, -, halloc⟩ := allocation_of_definitions hfields
    refine ⟨fun p ↦ halloc.primitiveType_mem, fun others hothers f hf ↦ ?_⟩
    rw [hfields, Except.ok.injEq] at hothers
    rw [← hothers] at hf
    exact ⟨hadmitted f hf, hapart.forall_ne hfields f hf⟩
  · rintro ⟨htypes, hall⟩
    obtain ⟨fields, hfields⟩ :=
      exists_definitions fun p hp ↦ p.exists_slotType_iff.mpr (htypes p hp)
    obtain ⟨own, hown⟩ := areUnambiguousFor_of_definitions hfields
    refine ⟨_, own, bodySlots tool, ofTool_ok_iff.mpr
      ⟨fields, hfields, fun f hf ↦ (hall fields hfields f hf).1, rfl⟩, ?_⟩
    rw [kept_eq_self fun f hf ↦ (hall fields hfields f hf).2]
    exact hown

/-- A required parameter in the place of the settings has no slot, and need not be given. -/
theorem settings_parameter_without_slot :
    let tool : Tool := ⟨"getItems", "Items", "/items", "GET",
      [⟨"model_config", "model_config", "query", true, "string", none, none⟩], false, false, none⟩
    let model : InputModel := ⟨"getItemsInput", []⟩
    ofTool tool = .ok model ∧ (¬∃ own bodies, AreUnambiguousFor model.slots tool own bodies) ∧
      model.arguments (.object [] : Argument) = .ok [] := by
  refine ⟨rfl, ?_, rfl⟩
  rintro ⟨own, bodies, h⟩
  cases h.length_eq

end Model

end InputModel

end ApiTools
