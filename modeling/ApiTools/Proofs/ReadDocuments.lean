import ApiTools.Document.Read
import ApiTools.Proofs.Fields
import ApiTools.Proofs.Outcome

/-!
# What documents are read from

When a part of a document was read: which fields it came from, and what stands in them. The
parameters of an operation come from the entries of two lists, its body from a field that may be a
reference (`buildOperation_ok_iff`).
-/

namespace ApiTools

open List (Forall₂)

namespace Lenient

variable {ε α : Type}

/-- A value that may be null is null or is read. -/
theorem optional_ok_iff {read : Value ε → Checked α} {v : Value ε} {a : Option α} :
    optional read v = .ok a ↔
      (v = .null ∧ a = none) ∨ (v ≠ .null ∧ ∃ b, read v = .ok b ∧ a = some b) := by
  have hread : (some <$> read v : Checked (Option α)) = .ok a ↔
      ∃ b, read v = .ok b ∧ a = some b := by
    cases read v with
    | error issues => simp [Functor.map, Except.map]
    | ok b => simp [Functor.map, Except.map, eq_comm]
  cases v with
  | null => simp [optional, eq_comm]
  | _ => simp [optional, hread]

end Lenient

namespace Document

section Fields

variable {α : Type} {fields : Fields Json} {names : List Text} {name : Text} {v : Json} {a : α}

private theorem present?_of_get? (h : fields.get? name = some v) (others : List Text) :
    present? fields (name :: others) = some (name, v) := by
  rw [present?, h]

/-- A field that has to be there is read under the first of its names that is there. -/
theorem required_ok_iff {others : List Text} {read : Json → Checked α} :
    required fields name others read = .ok a ↔
      ∃ key w, present? fields (name :: others) = some (key, w) ∧ read w = .ok a := by
  unfold required
  cases present? fields (name :: others) with
  | none => simp
  | some f =>
    obtain ⟨key, w⟩ := f
    simp [Checked.under_ok_iff]

/-- A field that may be left out is read under the first of its names that is there, and otherwise
has its default. -/
theorem field_ok_iff {default : α} {read : Json → Checked α} :
    field fields names default read = .ok a ↔
      (present? fields names = none ∧ a = default) ∨
        ∃ key w, present? fields names = some (key, w) ∧ read w = .ok a := by
  unfold field
  cases present? fields names with
  | none => simp [eq_comm]
  | some f =>
    obtain ⟨key, w⟩ := f
    simp [Checked.under_ok_iff]

/-- A field that may be null and gives something is there, and is not null. -/
theorem exists_of_field {read : Json → Checked α}
    (h : field fields names none (Lenient.optional read) = .ok (some a)) :
    ∃ key w, present? fields names = some (key, w) ∧ read w = .ok a := by
  rcases field_ok_iff.mp h with ⟨-, hnone⟩ | ⟨key, w, hpresent, hread⟩
  · cases hnone
  · rcases Lenient.optional_ok_iff.mp hread with ⟨-, hnone⟩ | ⟨-, b, hb, hsome⟩
    · cases hnone
    · cases hsome
      exact ⟨key, w, hpresent, hb⟩

/-- A field that is there under its first name is read from that. -/
theorem field_of_get? (h : fields.get? name = some v) {others : List Text} {default : α}
    {read : Json → Checked α} :
    field fields (name :: others) default read = .ok a ↔ read v = .ok a := by
  rw [field_ok_iff, present?_of_get? h]
  simp

/-- Texts are read from texts alone. -/
theorem readText_ok_iff {t : Text} : readText v = .ok t ↔ v = .string t := by
  cases v <;> simp [readText, Lenient.text, Lenient.checked, Checked.refuse]

/-- A text that has to be there is that of its first name, if that is there. -/
theorem get?_of_required {others : List Text} {t : Text}
    (h : required fields name others readText = .ok t) (hhas : fields.has name = true) :
    fields.get? name = some (.string t) := by
  obtain ⟨w, hw⟩ := Option.isSome_iff_exists.mp hhas
  obtain ⟨key, u, hpresent, hread⟩ := required_ok_iff.mp h
  rw [present?_of_get? hw] at hpresent
  cases hpresent
  rw [hw, readText_ok_iff.mp hread]

private theorem readItems_ok_iff {items : List Json} : readItems v = .ok items ↔ v = .array
    items := by
  cases v <;> simp [readItems, Checked.refuse]

/-- A model is read from an object all of whose names can be written. -/
theorem readObject_ok_iff {read : Fields Json → Checked α} :
    readObject read v = .ok a ↔ ∃ fields : Fields Json, v = .object fields ∧
      fields.hasSurrogateName = false ∧ read fields = .ok a := by
  cases v with
  | object fields =>
    cases hnames : Fields.hasSurrogateName fields <;> simp [readObject, hnames, Checked.refuse]
  | _ => simp [readObject, Checked.refuse]

/-- A list is read item by item. -/
theorem readList_ok_iff {read : Json → Checked α} {as : List α} :
    readList read v = .ok as ↔
      ∃ items, v = .array items ∧ Forall₂ (fun w a ↦ read w = .ok a) items as := by
  cases v <;> simp [readList, Checked.refuse, Checked.all_ok_iff]

/-- Named values are read one by one under their names. -/
theorem readFields_ok_iff {read : Json → Checked α} {as : Fields α} :
    readFields read v = .ok as ↔ ∃ fields : Fields Json, v = .object fields ∧
      Forall₂ (fun f g ↦ f.1 = g.1 ∧ read f.2 = .ok g.2) fields as := by
  have hfield : ∀ (f : Text × Json) (g : Text × α),
      (((f.1, ·) <$> read f.2 : Checked (Text × α)) = .ok g) ↔ f.1 = g.1 ∧ read f.2 = .ok g.2 := by
    intro f g
    cases read f.2 with
    | error issues => simp [Functor.map, Except.map]
    | ok b => simp [Functor.map, Except.map, Prod.ext_iff]
  cases v <;> simp [readFields, Checked.refuse, Checked.all_ok_iff, hfield]

end Fields

section Parts

variable {v : Json}

/-- A schema has the type and the enumeration of its object. -/
theorem readSchema_ok {schema : Schema} (h : readSchema v = .ok schema) :
    ∃ node : Fields Json, v = .object node ∧ schema.type = (node.get? "type").getD .null ∧
      ∀ values, schema.enum = some values → node.get? "enum" = some (.array values) := by
  obtain ⟨node, hv, -, hnode⟩ := readObject_ok_iff.mp h
  simp only [also, Checked.both_ok_iff, Except.ok.injEq] at hnode
  obtain ⟨_, _, ⟨_, enum, rfl, henum, rfl⟩, _, rfl⟩ := hnode
  refine ⟨node, hv, rfl, ?_⟩
  rintro values rfl
  obtain ⟨key, w, hpresent, hread⟩ := exists_of_field henum
  rw [readItems_ok_iff] at hread
  subst hread
  cases hget : node.get? "enum" with
  | none => simp [present?, hget] at hpresent
  | some u =>
    rw [present?_of_get? hget] at hpresent
    cases hpresent
    rfl

/-- A parameter that is read has its name and its place from its entry, if it has both. -/
theorem readParameter_ok {p : Parameter} (h : readParameter v = .ok p)
    (hparameter : isParameter v = true) : ∃ entry : Fields Json, v = .object entry ∧
      entry.get? "name" = some (.string p.name) ∧ entry.get? "in" = some (.string p.location) ∧
      field entry ["schema", "param_schema"] none (Lenient.optional readSchema) =
        .ok p.schema := by
  obtain ⟨entry, rfl, -, hentry⟩ := readObject_ok_iff.mp h
  simp only [also, Checked.both_ok_iff, Except.ok.injEq] at hentry
  obtain ⟨_, schema, ⟨_, _, ⟨_, _, ⟨_, location, ⟨_, name, rfl, hname, rfl⟩, hin, rfl⟩, _, rfl⟩, _,
    rfl⟩, hschema, rfl⟩ := hentry
  rw [isParameter, Bool.and_eq_true] at hparameter
  exact ⟨entry, rfl, get?_of_required hname hparameter.1, get?_of_required hin hparameter.2,
    hschema⟩

/-- An operation has its parameters and its body from fields of its object. -/
theorem readOperation_ok {fields : Fields Json} {operation : Operation}
    (h : readOperation (.object fields) = .ok operation) :
    field fields ["parameters"] [] (readList readParameter) = .ok operation.parameters ∧
      field fields ["requestBody", "request_body"] none (Lenient.optional readRequestBody) =
        .ok operation.requestBody := by
  obtain ⟨_, heq, -, h⟩ := readObject_ok_iff.mp h
  cases heq
  simp only [also, Checked.both_ok_iff, Except.ok.injEq] at h
  obtain ⟨_, body, ⟨_, parameters, ⟨_, _, ⟨_, _, ⟨_, _, ⟨_, _, rfl, _, rfl⟩, _, rfl⟩, _, rfl⟩, _,
    rfl⟩, hparameters, rfl⟩, hbody, rfl⟩ := h
  exact ⟨hparameters, hbody⟩

/-- An operation with merged entries in place of its own ones has its parameters from those. -/
theorem forall₂_of_readOperation {fields : Fields Json} {merged : List Json} {body : Json}
    {operation : Operation}
    (h : readOperation
      (.object ((fields.set "parameters" (.array merged)).set "requestBody" body)) =
        .ok operation) :
    Forall₂ (fun entry p ↦ readParameter entry = .ok p) merged operation.parameters := by
  have hget : ((fields.set "parameters" (.array merged)).set "requestBody" body).get?
      "parameters" = some (.array merged) := by
    rw [Fields.get?_set, if_neg (by decide), Fields.get?_set, if_pos rfl]
  have hread := (readOperation_ok h).1
  rw [field_of_get? hget, readList_ok_iff] at hread
  obtain ⟨_, hsame, hread⟩ := hread
  cases hsame
  exact hread

/-- A body has its forms from the content of its object. -/
theorem readRequestBody_ok {fields : Fields Json} {body : RequestBody}
    (h : readRequestBody (.object fields) = .ok body) :
    field fields ["content"] [] (readFields (Lenient.optional readMediaType)) =
      .ok body.content := by
  obtain ⟨_, heq, -, h⟩ := readObject_ok_iff.mp h
  cases heq
  simp only [also, Checked.both_ok_iff, Except.ok.injEq] at h
  obtain ⟨_, content, ⟨_, _, ⟨_, _, rfl, _, rfl⟩, _, rfl⟩, hcontent, rfl⟩ := h
  exact hcontent

end Parts

section Operations

variable {fields : Fields Json}

/-- The parameters among some entries, without the warnings. -/
theorem outcome_keepParameters (entries : List Json) :
    (keepParameters entries).outcome = .ok (entries.filter isParameter) := by
  induction entries with
  | nil => rfl
  | cons entry rest ih =>
    rw [keepParameters]
    by_cases hentry : isParameter entry = true
    · rw [if_pos hentry, Logged.outcome_bind, ih, List.filter_cons_of_pos hentry]
      rfl
    · rw [if_neg hentry, Logged.outcome_bind, List.filter_cons_of_neg hentry]
      exact ih

/-- The parameters that an object lists: the objects with a name and a place among its entries. -/
def declaredParameters (fields : Fields Json) : List Json :=
  match fields.get? "parameters" with
  | some (.array entries) => entries.filter isParameter
  | _ => []

private theorem filter_texts {α : Type} (as : List α) (f : α → Text) :
    (as.map fun a ↦ (.string (f a) : Json)).filter isParameter = [] := by
  rw [List.filter_eq_nil_iff]
  intro v hv
  obtain ⟨a, -, rfl⟩ := List.mem_map.mp hv
  exact Bool.false_ne_true

/-- Parameters are listed by lists alone, though texts and objects can be gone through as well. -/
theorem parameterEntries_ok {entries : List Json}
    (h : (parameterEntries ((fields.get? "parameters").getD .null)).outcome = .ok entries) :
    entries = declaredParameters fields := by
  unfold declaredParameters
  unfold parameterEntries at h
  cases hget : fields.get? "parameters" with
  | none =>
    rw [hget] at h
    cases h
    rfl
  | some v =>
    rw [hget, Option.getD_some] at h
    split at h
    · next hblank =>
      cases h
      cases v with
      | array items => rw [List.isEmpty_iff.mp hblank]; rfl
      | _ => rfl
    · cases v with
      | array items =>
        rw [listed?, outcome_keepParameters] at h
        cases h
        rfl
      | object others =>
        rw [listed?, outcome_keepParameters, Fields.names, List.map_map] at h
        cases h
        exact filter_texts others (·.1)
      | string t =>
        rw [listed?, outcome_keepParameters] at h
        cases h
        exact filter_texts t ([·])
      | _ => cases h

/-- An operation is built of its own parameters merged with the shared ones, of its body, and of the
fields of its object beside them; the key it stands at does not matter. -/
theorem buildOperation_ok_iff {path key : Text} {shared : List Json} {operation : Operation} :
    (buildOperation path key shared fields).outcome = .ok operation ↔ ∃ merged body,
      (∃ own, (parameterEntries ((fields.get? "parameters").getD .null)).outcome = .ok own ∧
        (mergeParameters shared own).outcome = .ok merged) ∧
      bodyEntry ((fields.get? "requestBody").getD .null) = .ok body ∧
      readOperation (.object ((fields.set "parameters" (.array merged)).set "requestBody" body)) =
        .ok operation := by
  simp only [buildOperation, Logged.bind_ok_iff]
  constructor
  · rintro ⟨own, hown, merged, hmerged, body, hbody, hoperation⟩
    split at hoperation
    · next hread =>
      cases hoperation
      exact ⟨merged, body, ⟨own, hown, hmerged⟩, hbody, hread⟩
    · cases hoperation
  · rintro ⟨merged, body, ⟨own, hown, hmerged⟩, hbody, hread⟩
    refine ⟨own, hown, merged, hmerged, body, hbody, ?_⟩
    rw [hread]
    rfl

end Operations

end Document

end ApiTools
