import ApiTools.Proofs.EffectiveParameters
import ApiTools.Proofs.LoadedTexts
import ApiTools.Tool.Record

/-!
# Texts of catalogs

A tool has its texts from its operation, which is read from parts of the document: its own object,
the parameters that its path item shares, and the lists and bodies in them. What is put in their
place holds no surrogate, so no text of the record of any tool holds one if the document does not
(`holdsClean_toRecord`).
-/

namespace ApiTools

open Spec (HoldsClean holdsClean_getD holdsClean_of_get?)
open Text (IsClean isClean_append_iff)

/-- What a name is made fit for schemas with is no surrogate. -/
theorem Identifier.isClean_sanitize {name : Text} (h : name.IsClean) :
    (sanitize name).IsClean := by
  intro c hc
  obtain ⟨d, hd, rfl⟩ := List.mem_map.mp hc
  split
  · exact h d hd
  · decide

namespace Document

/-- A parameter's texts hold no surrogates, nor do those that it is restricted to. -/
structure Parameter.Clean (p : Parameter) : Prop where
  name : p.name.IsClean
  location : p.location.IsClean
  description : (p.description.getD []).IsClean
  values : ∀ schema, p.schema = some schema → ∀ values, schema.enum = some values →
    ∀ v ∈ values, HoldsClean v

/-- What a tool takes over from an operation holds no surrogates. -/
structure Operation.Clean (operation : Operation) : Prop where
  summary : (operation.summary.getD []).IsClean
  description : (operation.description.getD []).IsClean
  parameters : ∀ p ∈ operation.parameters, p.Clean
  body : ∀ body, operation.requestBody = some body → (body.description.getD []).IsClean

section Reading

variable {fields : Fields Json} {v : Json}

private theorem holdsClean_set (hfields : HoldsClean (.object fields)) {name : Text}
    (hname : name.IsClean)
    (hv : HoldsClean v) : HoldsClean (.object (fields.set name v)) := by
  refine Value.allTexts_object_iff.mpr fun f hf ↦ ?_
  rcases Fields.mem_of_mem_set hf with hold | rfl
  · exact Value.allTexts_object_iff.mp hfields f hold
  · exact ⟨hname, hv⟩

private theorem clean_readParameter {p : Parameter} (hv : HoldsClean v)
    (h : readParameter v = .ok p) :
    p.Clean := by
  obtain ⟨fields, rfl, -, hfields⟩ := readObject_ok_iff.mp h
  simp only [also, Checked.both_ok_iff, Except.ok.injEq] at hfields
  obtain ⟨_, schema, ⟨_, description, ⟨_, _, ⟨_, location, ⟨_, name, rfl, hname, rfl⟩, hin, rfl⟩, _,
    rfl⟩, hdescription, rfl⟩, hschema, rfl⟩ := hfields
  refine ⟨isClean_required hv hname, isClean_required hv hin,
    isClean_optionalField hv hdescription, ?_⟩
  rintro schema rfl values henum
  obtain ⟨key, w, hpresent, hread⟩ := exists_of_field hschema
  have hclean := holdsClean_present? hv hpresent
  obtain ⟨node, rfl, -, hvalues⟩ := readSchema_ok hread
  exact Value.allTexts_array_iff.mp (holdsClean_of_get? hclean (hvalues values henum))

private theorem isClean_readRequestBody {body : RequestBody} (hv : HoldsClean v)
    (h : readRequestBody v = .ok body) : (body.description.getD []).IsClean := by
  obtain ⟨fields, rfl, -, hfields⟩ := readObject_ok_iff.mp h
  simp only [also, Checked.both_ok_iff, Except.ok.injEq] at hfields
  obtain ⟨_, _, ⟨_, _, ⟨_, description, rfl, hdescription, rfl⟩, _, rfl⟩, _, rfl⟩ := hfields
  exact isClean_optionalField hv hdescription

private theorem clean_readOperation {operation : Operation} (hv : HoldsClean v)
    (h : readOperation v = .ok operation) : operation.Clean := by
  obtain ⟨fields, rfl, -, hfields⟩ := readObject_ok_iff.mp h
  simp only [also, Checked.both_ok_iff, Except.ok.injEq] at hfields
  obtain ⟨_, body, ⟨_, parameters, ⟨_, _, ⟨_, description, ⟨_, summary, ⟨_, _, rfl, _, rfl⟩,
    hsummary, rfl⟩, hdescription, rfl⟩, _, rfl⟩, hparameters, rfl⟩, hbody, rfl⟩ := hfields
  refine ⟨isClean_optionalField hv hsummary, isClean_optionalField hv hdescription, ?_, ?_⟩
  · rcases field_ok_iff.mp hparameters with ⟨-, rfl⟩ | ⟨key, w, hpresent, hread⟩
    · exact List.forall_mem_nil _
    · obtain ⟨items, rfl, hitems⟩ := readList_ok_iff.mp hread
      intro p hp
      obtain ⟨item, hitem, hp⟩ := exists_partner hitems hp
      exact clean_readParameter
        (Value.allTexts_array_iff.mp (holdsClean_present? hv hpresent) item hitem) hp
  · rintro body rfl
    obtain ⟨key, w, hpresent, hread⟩ := exists_of_field hbody
    exact isClean_readRequestBody (holdsClean_present? hv hpresent) hread

end Reading

section Building

variable {fields : Fields Json} {v : Json}

private theorem holdsClean_declaredParameters (hfields : HoldsClean (.object fields)) :
    ∀ entry ∈ declaredParameters fields, HoldsClean entry := by
  intro entry hentry
  unfold declaredParameters at hentry
  split at hentry
  · next entries hentries =>
    exact Value.allTexts_array_iff.mp (holdsClean_of_get? hfields hentries) entry
      (List.mem_filter.mp hentry).1
  · cases hentry

/-- Merged entries are those of one of both lists. -/
theorem mem_of_mergeParameters {shared own merged : List Json}
    (h : (mergeParameters shared own).outcome = .ok merged) :
    ∀ entry ∈ merged, entry ∈ shared ∨ entry ∈ own := by
  intro entry hentry
  unfold mergeParameters at h
  split at h
  · next keys _ =>
    cases h
    rcases List.mem_append.mp hentry with hkept | hown
    · obtain ⟨⟨_, key⟩, hpair, rfl⟩ := List.mem_map.mp hkept
      exact .inl (List.of_mem_zip (List.mem_filter.mp hpair).1).1
    · exact .inr hown
  · cases h

private theorem holdsClean_contentEntries {content : Fields Json} (hv : HoldsClean v)
    (h : contentEntries v = .ok content) : HoldsClean (.object content) := by
  unfold contentEntries at h
  split at h
  · cases h
    exact .object (List.forall_mem_nil _) (List.forall_mem_nil _)
  · split at h
    · cases h
      refine Value.allTexts_object_iff.mpr fun f hf ↦ ?_
      obtain ⟨⟨name, media⟩, hmedia, rfl⟩ := List.mem_map.mp hf
      obtain ⟨hname, hclean⟩ := Value.allTexts_object_iff.mp hv _ hmedia
      refine ⟨hname, ?_⟩
      -- A media type that is no object has been put aside.
      cases media with
      | object fields => exact hclean
      | _ => exact .null
    · cases h

private theorem holdsClean_bodyEntry {body : Json} (hv : HoldsClean v)
    (h : bodyEntry v = .ok body) :
    HoldsClean body := by
  cases v with
  | object fields =>
    unfold bodyEntry at h
    dsimp only at h
    split at h
    · cases h
      exact .null
    · obtain ⟨content, hcontent, hbody⟩ := Outcome.bind_ok_iff.mp h
      cases hbody
      exact holdsClean_set hv (by decide)
        (holdsClean_contentEntries (holdsClean_getD hv "content" .null) hcontent)
  | _ =>
    cases h
    exact .null

/-- An operation has its texts from the object that it is built of and from the parameters that
its path item shares. -/
theorem clean_buildOperation {path key : Text} {shared : List Json} {operation : Operation}
    (hshared : ∀ entry ∈ shared, HoldsClean entry) (hfields : HoldsClean (.object fields))
    (h : (buildOperation path key shared fields).outcome = .ok operation) : operation.Clean := by
  obtain ⟨merged, body, ⟨own, hown, hmerged⟩, hbody, hread⟩ := buildOperation_ok_iff.mp h
  have hentries : ∀ entry ∈ merged, HoldsClean entry := by
    intro entry hentry
    rcases mem_of_mergeParameters hmerged entry hentry with hold | hnew
    · exact hshared entry hold
    · rw [parameterEntries_ok hown] at hnew
      exact holdsClean_declaredParameters hfields entry hnew
  have hclean := holdsClean_bodyEntry (holdsClean_getD hfields "requestBody" .null) hbody
  refine clean_readOperation ?_ hread
  exact holdsClean_set (holdsClean_set hfields (by decide) (.array hentries)) (by decide) hclean

private theorem holdsClean_of_mem_declaredOperations (hv : HoldsClean v) :
    ∀ o ∈ declaredOperations v, HoldsClean (.object o.item) ∧ HoldsClean (.object o.object) := by
  intro o ho
  obtain ⟨⟨path, item⟩, hitem, ho⟩ := List.mem_flatMap.mp ho
  obtain ⟨⟨method, object⟩, hobject, rfl⟩ := List.mem_map.mp ho
  have hclean := (holdsClean_pathItems hv _ hitem).2
  obtain ⟨key, hfield, -, -⟩ := mem_methodObjects_iff.mp (Fields.mem_of_mem_ofList hobject)
  exact ⟨hclean, (Value.allTexts_object_iff.mp hclean _ hfield).2⟩

end Building

end Document

namespace Catalog

section Texts

variable {t u : Option Text}

private theorem isClean_getD (ht : (t.getD []).IsClean) {default : Text}
    (hdefault : default.IsClean) :
    (t.getD default).IsClean := by
  cases t with
  | none => exact hdefault
  | some t => exact ht

private theorem isClean_nonEmpty? (ht : (t.getD []).IsClean) : ((nonEmpty? t).getD []).IsClean := by
  match t with
  | none => exact ht
  | some [] => exact ht
  | some (_ :: _) => exact ht

private theorem isClean_or (ht : (t.getD []).IsClean) (hu : (u.getD []).IsClean) :
    ((t.or u).getD []).IsClean := by
  cases t with
  | none => exact hu
  | some t => exact ht

private theorem holdsClean_optionalText (ht : (t.getD []).IsClean) :
    HoldsClean (Parameter.optionalText t) := by
  cases t with
  | none => exact .null
  | some t => exact .string ht

end Texts

section Records

variable {operation : Document.Operation}

private theorem isClean_primitiveType (schema : Option Document.Schema) :
    (primitiveType schema).IsClean := by
  have htypes : ∀ name ∈ primitiveTypes, name.IsClean := by decide
  unfold primitiveType
  split
  · split
    · next hname => exact htypes _ hname
    · decide
  · decide

/-- A parameter is restricted to texts of its enumeration. -/
theorem mem_of_stringEnum {schema : Option Document.Schema} {texts : List Text}
    (h : stringEnum schema = some texts) : ∃ s values, schema = some s ∧ s.enum = some values ∧
      ∀ t ∈ texts, Value.string t ∈ values := by
  obtain ⟨ref, values, rfl, htexts⟩ := stringEnum_eq_some h
  obtain ⟨rfl, -⟩ := enumTexts_eq_some_iff.mp htexts
  refine ⟨_, values, rfl, rfl, fun t ht ↦ ?_⟩
  obtain ⟨v, hv, htext⟩ := List.mem_filterMap.mp ht
  cases v with
  | string u =>
    cases htext
    exact hv
  | _ => cases htext

private theorem holdsClean_parameter? {declared : Document.Parameter} {p : Parameter}
    (hdeclared : declared.Clean) (h : parameter? declared = some p) : HoldsClean p.toRecord := by
  have hnames : ∀ n ∈ Parameter.recordNames, n.IsClean := by decide
  unfold parameter? at h
  split at h
  · cases h
    refine .object (fun f hf ↦ hnames f.1 (List.mem_map_of_mem hf)) fun f hf ↦ ?_
    simp only [List.mem_cons, List.not_mem_nil, or_false] at hf
    rcases hf with rfl | rfl | rfl | rfl | rfl | rfl | rfl
    · exact .string hdeclared.name
    · exact .string (Identifier.isClean_sanitize hdeclared.name)
    · exact .string hdeclared.location
    · exact .bool _
    · exact .string (isClean_primitiveType _)
    · dsimp only
      split
      · next texts htexts =>
        obtain ⟨schema, values, hschema, henum, hsub⟩ := mem_of_stringEnum htexts
        refine .array fun v hv ↦ ?_
        obtain ⟨t, ht, rfl⟩ := List.mem_map.mp hv
        exact hdeclared.values schema hschema values henum _ (hsub t ht)
      · exact .null
    · exact holdsClean_optionalText hdeclared.description
  · cases h

private theorem isClean_body? (h : operation.Clean) :
    IsClean (((body? operation).map (·.2)).getD []) := by
  unfold body?
  split
  · next body hbody =>
    split
    · exact isClean_getD (isClean_nonEmpty? (h.body body hbody)) (by decide)
    · exact nofun
  · exact nofun

/-- No text of the tool for an operation holds a surrogate, if the operation's do not, nor what the
tool is told apart by. -/
theorem holdsClean_tool {path method : Text} (h : operation.Clean)
    (hid : (Identifier.ofOperation path method).IsClean) (hmethod : method.IsClean)
    (hpath : path.IsClean) : HoldsClean (tool path method operation).toRecord := by
  have hnames : ∀ n ∈ Tool.recordNames, n.IsClean := by decide
  have hparameters : ∀ p ∈ (tool path method operation).parameters, HoldsClean p.toRecord := by
    intro p hp
    have hkept : p ∈ operation.parameters.filterMap parameter? := by
      rcases List.mem_append.mp hp with hp | hp
      · exact (List.mem_filter.mp hp).1
      · exact (List.mem_filter.mp hp).1
    obtain ⟨declared, hdeclared, hp⟩ := List.mem_filterMap.mp hkept
    exact holdsClean_parameter? (h.parameters declared hdeclared) hp
  have htold : (method ++ " " ++ path).IsClean :=
    isClean_append_iff.mpr ⟨isClean_append_iff.mpr ⟨hmethod, by decide⟩, hpath⟩
  refine .object (fun f hf ↦ hnames f.1 (List.mem_map_of_mem hf)) fun f hf ↦ ?_
  simp only [List.mem_cons, List.not_mem_nil, or_false] at hf
  rcases hf with rfl | rfl | rfl | rfl | rfl | rfl | rfl | rfl
  · exact .string hid
  · exact .string (isClean_getD
      (isClean_or (isClean_nonEmpty? h.summary) (isClean_nonEmpty? h.description)) htold)
  · exact .string hpath
  · exact .string hmethod
  · exact .array (List.forall_mem_map.mpr hparameters)
  · exact .bool _
  · exact .bool _
  · exact holdsClean_optionalText (isClean_body? h)

/-- No record of a tool of a document holds a surrogate, if the document holds none. -/
theorem holdsClean_toRecord {v : Json} {document : Document} (hv : HoldsClean v)
    (h : (Document.ofSpec v).outcome = .ok document) :
    ∀ tool ∈ ofDocument document, HoldsClean tool.toRecord := by
  intro tool htool
  obtain ⟨hid, hmethod, hpath⟩ := Document.isClean_of_mem_ofDocument hv h tool htool
  obtain ⟨o, ho, operation, hbuilds, rfl⟩ := exists_partner (Document.forall₂_ofDocument h) htool
  obtain ⟨hitem, hobject⟩ := Document.holdsClean_of_mem_declaredOperations hv o ho
  exact holdsClean_tool (Document.clean_buildOperation
    (Document.holdsClean_declaredParameters hitem) hobject hbuilds.built) hid hmethod hpath

end Records

end Catalog

end ApiTools
