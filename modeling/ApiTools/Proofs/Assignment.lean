import ApiTools.Proofs.SlotValues

/-!
# Assignments of values

A call assigns values to the parameters of a tool and to its body, some of them to none. Under the
names that callers are told to use, an assignment of well-typed values is read slot by slot, unless
the name of one slot is the field of another.
-/

namespace ApiTools

/-- The values of a type. -/
def SlotType.Has : SlotType → Argument → Prop
  | .string, .string _ => True
  | .integer, .int _ => True
  | .number, .float _ => True
  | .boolean, .bool _ => True
  | .oneOf texts, .string t => t ∈ texts
  | .body, .string _ => True
  | .body, .object _ => True
  | _, _ => False

/-- A value of a type, or none where none is required. -/
def SlotType.Takes (type : SlotType) (required : Bool) : Option Argument → Prop
  | none => required = false
  | some v => type.Has v

/-- A value of a parameter's type, or none unless the parameter is required. -/
def Parameter.Takes (p : Parameter) (v : Option Argument) : Prop :=
  ∃ type, SlotType.ofParameter p = .ok type ∧ type.Takes p.required v

/-- Values, or none, for the parameters of a tool in order, and then for its body if it has one. -/
inductive Tool.Takes (tool : Tool) : List (Option Argument) → Prop
  | parameters {values : List (Option Argument)} (bodiless : tool.hasBody = false)
      (own : List.Forall₂ Parameter.Takes tool.parameters values) : Takes tool values
  | withBody {values : List (Option Argument)} {body : Option Argument}
      (taken : tool.hasBody = true)
      (own : List.Forall₂ Parameter.Takes tool.parameters values)
      (last : SlotType.body.Takes tool.bodyRequired body) : Takes tool (values ++ [body])

/-- The values that are given, each under the name in its position. -/
def assign (names : List Text) (values : List (Option Argument)) : Arguments :=
  (names.zip values).filterMap fun (name, v) ↦ v.map fun w ↦ (name, w)

/-- A value of a type is read as it is. -/
theorem SlotType.read_of_has {type : SlotType} {v : Argument} (h : type.Has v) :
    type.read v = .ok v := by
  cases type <;> cases v <;> first
    | exact h.elim
    | rfl
    | exact congrArg (Functor.map Value.string) (congrArg Lenient.checked (if_pos h))

private theorem SlotType.isGiven_of_has {type : SlotType} {v : Argument} (h : type.Has v) :
    InputModel.isGiven v = true :=
  isGiven_of_read (read_of_has h)

private theorem isGiven_of_takes {ps : List Parameter} {own : List (Option Argument)}
    (h : List.Forall₂ Parameter.Takes ps own) {w : Argument} (hw : some w ∈ own) :
    InputModel.isGiven w = true := by
  obtain ⟨p, hzip⟩ := exists_mem_zip h.flip hw
  obtain ⟨type, _, htakes⟩ := List.forall₂_zip h.flip hzip
  exact SlotType.isGiven_of_has htakes

namespace Tool.Takes

variable {tool : Tool} {values : List (Option Argument)}

/-- There is a position for every parameter, and one for the body if there is one. -/
theorem length_eq (h : tool.Takes values) :
    values.length = tool.parameters.length + (InputModel.bodyNames tool).length := by
  cases h with
  | parameters bodiless own =>
    rw [InputModel.bodyNames, bodiless, own.length_eq]
    rfl
  | withBody taken own last =>
    rw [InputModel.bodyNames, if_pos taken, List.length_append, own.length_eq]
    rfl

/-- No value is null. -/
theorem isGiven (h : tool.Takes values) {w : Argument} (hw : some w ∈ values) :
    InputModel.isGiven w = true := by
  cases h with
  | parameters bodiless own => exact isGiven_of_takes own hw
  | withBody taken own last =>
    rcases List.mem_append.mp hw with hw | hw
    · exact isGiven_of_takes own hw
    · rw [← List.mem_singleton.mp hw] at last
      exact SlotType.isGiven_of_has last

end Tool.Takes

section Assign

variable {names : List Text} {values : List (Option Argument)}

/-- The first value is assigned to the first name, and the others behind it. -/
theorem assign_cons (name : Text) (v : Option Argument) (names : List Text)
    (values : List (Option Argument)) :
    assign (name :: names) (v :: values) =
      (v.map fun w ↦ (name, w)).toList ++ assign names values := by
  rw [assign, List.zip_cons_cons, List.filterMap_cons]
  cases v <;> rfl

/-- Values are assigned to some of the names, in their order. -/
theorem names_assign_sublist (names : List Text) (values : List (Option Argument)) :
    (assign names values).names.Sublist names := by
  induction names generalizing values with
  | nil => exact List.Sublist.refl []
  | cons name names ih =>
    cases values with
    | nil => exact List.nil_sublist _
    | cons v values =>
      rw [assign_cons]
      cases v with
      | none => exact (ih values).cons name
      | some w => exact (ih values).cons_cons name

/-- What is assigned to one of several distinct names is found under it. -/
theorem get?_assign (hnames : names.Nodup) {name : Text} {v : Option Argument}
    (hzip : (name, v) ∈ names.zip values) : (assign names values).get? name = v := by
  induction names generalizing values with
  | nil => cases hzip
  | cons first names ih =>
    cases values with
    | nil => cases hzip
    | cons w values =>
      obtain ⟨hfresh, hnames⟩ := List.nodup_cons.mp hnames
      rw [assign_cons, Fields.get?_append]
      rw [List.zip_cons_cons] at hzip
      rcases List.mem_cons.mp hzip with heq | hlater
      · cases heq
        have hmissing : (assign names values).get? name = none := by
          rw [Fields.get?_eq_none_iff]
          exact fun hmem ↦ hfresh ((names_assign_sublist names values).subset hmem)
        cases v with
        | none => exact hmissing
        | some w =>
          rw [Option.map_some, Option.toList_some, Fields.get?_cons, if_pos rfl, Option.some_or]
      · have hne : first ≠ name := by
          rintro rfl
          exact hfresh (List.of_mem_zip hlater).1
        cases w with
        | none => exact ih hnames hlater
        | some w =>
          rw [Option.map_some, Option.toList_some, Fields.get?_cons, if_neg hne, Fields.get?_nil,
            Option.none_or]
          exact ih hnames hlater

end Assign

namespace InputModel

variable {tool : Tool} {model : InputModel} {values : List (Option Argument)} {slot : Slot}

/-- No slot is named like the field of another. -/
def Unambiguous (model : InputModel) : Prop :=
  ∀ slot ∈ model.slots, ∀ other ∈ model.slots, slot.otherName = some other.field → slot = other

private theorem takes_of_isFor {ps : List Parameter} {slots : List Slot}
    (hfor : List.Forall₂ (fun p slot ↦ slot.IsFor p) ps slots)
    (h : List.Forall₂ Parameter.Takes ps values) :
    List.Forall₂ (fun slot v ↦ slot.type.Takes slot.required v) slots values := by
  induction hfor generalizing values with
  | nil =>
    cases h
    exact .nil
  | cons hslot _ ih =>
    cases h with
    | cons htakes hrest =>
      obtain ⟨type, hknown, htakes⟩ := htakes
      rw [hslot.type, Except.ok.injEq] at hknown
      rw [← hknown, ← hslot.required] at htakes
      exact .cons htakes (ih hrest)

/-- A model that has a slot for everything that it is asked for, and none in the place of what it
calls behind a reading. -/
structure IsWhole (model : InputModel) (tool : Tool) : Prop where
  made : ofTool tool = .ok model
  all : definitions tool = .ok model.slots
  hookless : model.hasHook = false

/-- The fields asked for take what the tool takes. -/
theorem slots_take {slots : List Slot} (hslots : definitions tool = .ok slots)
    (h : tool.Takes values) :
    List.Forall₂ (fun slot v ↦ slot.type.Takes slot.required v) slots values := by
  obtain ⟨own, rfl, halloc⟩ := allocation_of_definitions hslots
  rw [bodySlots]
  cases h with
  | parameters bodiless own =>
    rw [if_neg (by rw [bodiless]; exact Bool.false_ne_true), List.append_nil]
    exact takes_of_isFor halloc.forall₂_isFor own
  | withBody taken own last =>
    rw [if_pos taken]
    exact List.rel_append (takes_of_isFor halloc.forall₂_isFor own) (.cons last .nil)

/-- The names that callers use can be written. -/
theorem isClean_exposed (hmodel : ofTool tool = .ok model) (hslot : slot ∈ model.slots) :
    slot.exposed.IsClean := by
  obtain ⟨fields, hfields, hadmitted, rfl⟩ := ofTool_ok_iff.mp hmodel
  obtain ⟨hmem, hname⟩ := mem_kept.mp hslot
  refine (hadmitted slot hmem).clean hname slot.exposed ?_
  rw [Slot.exposed, Slot.texts]
  cases slot.otherName <;> simp

/-- In a model without ambiguity no slot is exposed under the field of another. -/
theorem eq_of_exposed_eq_field (hmodel : ofTool tool = .ok model) (hapart : model.Unambiguous)
    {other : Slot} (hother : other ∈ model.slots) (hslot : slot ∈ model.slots)
    (h : other.exposed = slot.field) : other = slot := by
  rw [Slot.exposed] at h
  cases hname : other.otherName with
  | none =>
    rw [hname, Option.getD_none] at h
    exact List.inj_on_of_nodup_map (fields_nodup hmodel) hother hslot h
  | some name =>
    rw [hname, Option.getD_some] at h
    exact hapart other hother slot hslot (hname.trans (congrArg some h))

section Payload

variable {payload : Arguments}

private theorem valuesOf_eq_assign {slots : List Slot}
    (h : List.Forall₂ (fun slot v ↦ slot.value? payload = v) slots values) :
    valuesOf payload slots = assign (slots.map Slot.target) values := by
  induction h with
  | nil => rfl
  | @cons slot v _ _ hvalue _ ih =>
    rw [List.map_cons, assign_cons, ← ih, valuesOf, List.filterMap_cons, hvalue]
    cases v <;> rfl

private theorem exists_slot_of_mem_assign {name : Text} {w : Argument}
    (h : (name, w) ∈ assign (model.slots.map Slot.exposed) values) :
    ∃ slot ∈ model.slots, slot.exposed = name := by
  have hname : name ∈ (assign (model.slots.map Slot.exposed) values).names :=
    List.mem_map.mpr ⟨_, h, rfl⟩
  exact List.mem_map.mp ((names_assign_sublist _ _).subset hname)

variable (hmodel : ofTool tool = .ok model) (hapart : model.Unambiguous)
  (htakes : List.Forall₂ (fun slot v ↦ slot.type.Takes slot.required v) model.slots values)
  (hpayload : payload.Perm (assign (model.slots.map Slot.exposed) values))

include hmodel hapart htakes hpayload

/-- In a model without ambiguity each slot is given what is assigned to its exposed name. -/
theorem given?_of_assigned {v : Option Argument} (hzip : (slot, v) ∈ model.slots.zip values) :
    slot.given? payload = v := by
  have hdistinct : (assign (model.slots.map Slot.exposed) values).Distinct :=
    (exposed_nodup hmodel).sublist (names_assign_sublist _ _)
  have hget : payload.get? slot.exposed = v := by
    rw [Fields.get?_perm hpayload hdistinct]
    apply get?_assign (exposed_nodup hmodel)
    rw [List.zip_map_left]
    exact List.mem_map.mpr ⟨(slot, v), hzip, rfl⟩
  have htake := List.forall₂_zip htakes hzip
  cases v with
  | some w =>
    rw [Slot.given?_of_get?_exposed hget, Option.filter_some,
      if_pos (SlotType.isGiven_of_has htake)]
  | none =>
    rw [Slot.given?_of_get?_field hget]
    cases hfield : payload.get? slot.field with
    | none => rfl
    | some w =>
      obtain ⟨other, hother, hexposed⟩ :=
        exists_slot_of_mem_assign (hpayload.mem_iff.mp (Fields.mem_of_get? hfield))
      have heq := eq_of_exposed_eq_field hmodel hapart hother (List.of_mem_zip hzip).1 hexposed
      rw [heq] at hexposed
      rw [hexposed, hfield] at hget
      cases hget

/-- An assignment of well-typed values is accepted, and gives each target its value. -/
theorem arguments_of_assigned (hhook : model.hasHook = false) :
    model.arguments (.object payload) =
      .ok (Fields.ofList (assign (model.slots.map Slot.target) values)) := by
  have hgiven : ∀ slot v, (slot, v) ∈ model.slots.zip values → slot.given? payload = v :=
    fun _ _ ↦ given?_of_assigned hmodel hapart htakes hpayload
  apply arguments_ok_iff.mpr
  refine ⟨⟨?_, ?_, hhook⟩, ?_⟩
  · rintro ⟨name, w⟩ hf
    obtain ⟨slot, hslot, rfl⟩ := exists_slot_of_mem_assign (hpayload.mem_iff.mp hf)
    exact isClean_exposed hmodel hslot
  · intro slot hslot
    obtain ⟨v, hzip⟩ := exists_mem_zip htakes hslot
    have htake := List.forall₂_zip htakes hzip
    rw [Slot.Fits, hgiven slot v hzip]
    cases v with
    | none => exact htake
    | some w => exact ⟨w, SlotType.read_of_has htake⟩
  · have hundeclared : model.undeclared payload = [] := by
      rw [List.eq_nil_iff_forall_not_mem]
      rintro ⟨name, w⟩ hf
      have hmem := (List.mem_filter.mp (List.mem_filter.mp hf).1).1
      obtain ⟨slot, hslot, rfl⟩ := exists_slot_of_mem_assign (hpayload.mem_iff.mp hmem)
      exact notMem_names_undeclared hslot (List.mem_map.mpr ⟨_, hf, rfl⟩)
    have hvalues : List.Forall₂ (fun slot v ↦ slot.value? payload = v) model.slots values := by
      rw [List.forall₂_iff_zip]
      refine ⟨htakes.length_eq, fun {slot v} hzip ↦ ?_⟩
      have htake := List.forall₂_zip htakes hzip
      cases v with
      | none => rw [Slot.value?, hgiven slot none hzip, Option.bind_none]
      | some w =>
        exact Slot.value?_eq_some_iff.mpr
          ⟨w, hgiven slot (some w) hzip, SlotType.read_of_has htake⟩
    rw [given, hundeclared, List.append_nil, valuesOf_eq_assign hvalues]

end Payload

end InputModel

end ApiTools
