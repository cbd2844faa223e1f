import ApiTools.Document.Load
import ApiTools.Proofs.DeclaredOperations
import ApiTools.Proofs.InlinedReferences
import ApiTools.Proofs.MethodNames
import ApiTools.Proofs.NormalDocuments

/-!
# Texts of loaded documents

A document that was loaded from bytes holds no surrogates: its normal form could be written, and
every step behind that takes texts apart or puts them together. So no surrogate is in what it calls
itself, in the URL of its service, or in the identifiers, methods and paths of its tools
(`toldClean_of_parse`).
-/

namespace ApiTools

open Spec (HoldsClean holdsClean_getD holdsClean_of_get?)
open Text (IsClean isClean_append_iff isClean_ofString)

section Case

variable {c : CodePoint} {t : Text}

private theorem CodePoint.isSurrogate_orSelf {n : Nat} (hn : n < 0xD800 ∨ 0xE000 ≤ n)
    (hc : c.isSurrogate = false) : (c.orSelf n).isSurrogate = false := by
  rw [isSurrogate_eq_false_iff] at hc ⊢
  rcases val_orSelf c n with hval | hval
  · rwa [hval]
  · rwa [hval]

/-- The upper case of a code point is made of surrogates only if it is one. -/
theorem CodePoint.isClean_toUpper (hc : c.isSurrogate = false) : c.toUpper.IsClean := by
  have hexpansions : ∀ e ∈ upperExpansions, ∀ n ∈ e.2, n < 0xD800 ∨ 0xE000 ≤ n := by
    decide +kernel
  have hruns : ∀ run ∈ upperRuns,
      run.target + (run.last - run.first) < 0xD800 ∨ 0xE000 ≤ run.target := by decide +kernel
  unfold toUpper
  split
  · next ns hns =>
    obtain ⟨before, behind, hlist, -⟩ := List.lookup_eq_some_iff.mp hns
    have hmem : (c.val, ns) ∈ upperExpansions := by
      rw [hlist]
      exact List.mem_append_right before List.mem_cons_self
    exact List.forall_mem_map.mpr fun n hn ↦ isSurrogate_orSelf (hexpansions _ hmem n hn) hc
  · refine List.forall_mem_singleton.mpr (isSurrogate_orSelf ?_ hc)
    rcases mapRuns_cases upperRuns c.val with hkept | ⟨run, hrun, hfirst, hlast, hmoved⟩
    · rw [hkept]
      exact isSurrogate_eq_false_iff.mp hc
    · have hbounds := hruns run hrun
      omega

private theorem Text.isClean_toUpper (ht : t.IsClean) : t.toUpper.IsClean :=
  isClean_flatMap_iff.mpr fun c hc ↦ CodePoint.isClean_toUpper (ht c hc)

end Case

namespace Identifier

private theorem isClean_titleFrom {t : Text} (ht : t.IsClean) (starting : Bool) :
    (titleFrom starting t).IsClean := by
  induction t generalizing starting with
  | nil => exact nofun
  | cons c t ih =>
    obtain ⟨hc, ht⟩ := List.forall_mem_cons.mp ht
    rw [titleFrom, isClean_append_iff]
    refine ⟨?_, ih ht _⟩
    split
    · exact CodePoint.isClean_toUpper hc
    · exact List.forall_mem_singleton.mpr hc

private theorem isClean_skeleton {path : Text} (hpath : path.IsClean) :
    (skeleton path).IsClean := by
  have hchars : IsClean (path.flatMap skeletonChar) := by
    refine Text.isClean_flatMap_iff.mpr fun c hc ↦ ?_
    unfold skeletonChar
    split
    · exact nofun
    · split
      · decide
      · exact List.forall_mem_singleton.mpr (hpath c hc)
  unfold skeleton
  split
  · next c rest htext =>
    rw [htext] at hchars
    split
    · exact (List.forall_mem_cons.mp hchars).2
    · exact hchars
  · exact nofun

/-- The identifier of an operation is clean if its path and the name of its method are. -/
theorem isClean_ofOperation {path method : Text} (hpath : path.IsClean)
    (hmethod : method.toLower.IsClean) : (ofOperation path method).IsClean :=
  isClean_append_iff.mpr ⟨hmethod, isClean_titleFrom (isClean_skeleton hpath) true⟩

end Identifier

namespace Document

/-- What is told of a document where it is offered holds no surrogates. -/
structure ToldClean (document : Document) : Prop where
  title : document.info.title.IsClean
  version : document.info.version.IsClean
  description : (document.info.description.getD []).IsClean
  url : (document.serverUrl.getD []).IsClean
  tools : ∀ tool ∈ Catalog.ofDocument document,
    tool.id.IsClean ∧ tool.method.IsClean ∧ tool.path.IsClean

section Constants

mutual

private theorem holdsClean_withoutConstants : ∀ v, HoldsClean v → HoldsClean (withoutConstants v)
  | .null, hv | .bool _, hv | .int _, hv | .string _, hv => hv
  | .float x, hv => by
    rw [withoutConstants]
    split
    · next t ht =>
      unfold constantText? at ht
      split at ht
      · cases ht
      · cases ht
        exact .string (Double.isAscii_render (by decide) (by decide) x).isClean
    · exact hv
  | .array items, hv =>
    Value.allTexts_array_iff.mpr (holdsClean_withoutConstantItems items
      (Value.allTexts_array_iff.mp hv))
  | .object fields, hv =>
    Value.allTexts_object_iff.mpr (holdsClean_withoutConstantFields fields
      (Value.allTexts_object_iff.mp hv))

private theorem holdsClean_withoutConstantItems : ∀ items : List Json, (∀ v ∈ items, HoldsClean v) →
    ∀ v ∈ withoutConstantItems items, HoldsClean v
  | [], _ => nofun
  | v :: rest, hitems => by
    obtain ⟨hv, hrest⟩ := List.forall_mem_cons.mp hitems
    exact List.forall_mem_cons.mpr ⟨holdsClean_withoutConstants v hv,
      holdsClean_withoutConstantItems rest hrest⟩

private theorem holdsClean_withoutConstantFields : ∀ fields : Fields Json,
    (∀ f ∈ fields, f.1.IsClean ∧ HoldsClean f.2) →
      ∀ f ∈ withoutConstantFields fields, f.1.IsClean ∧ HoldsClean f.2
  | [], _ => nofun
  | (name, v) :: rest, hfields => by
    obtain ⟨⟨hname, hv⟩, hrest⟩ := List.forall_mem_cons.mp hfields
    exact List.forall_mem_cons.mpr ⟨⟨hname, holdsClean_withoutConstants v hv⟩,
      holdsClean_withoutConstantFields rest hrest⟩

end

end Constants

section Reading

variable {fields : Fields Json} {names : List Text} {v : Json} {t : Text} {document : Document}

/-- The value of a field under one of several names holds no surrogate if the object holds none. -/
theorem holdsClean_present? (hfields : HoldsClean (.object fields)) {key : Text} {w : Json}
    (h : present? fields names = some (key, w)) : HoldsClean w := by
  induction names with
  | nil => cases h
  | cons name rest ih =>
    rw [present?] at h
    split at h
    · next found hfound =>
      cases h
      exact holdsClean_of_get? hfields hfound
    · exact ih h

private theorem isClean_readText (hv : HoldsClean v) (h : readText v = .ok t) : t.IsClean := by
  rw [readText_ok_iff.mp h] at hv
  exact Value.allTexts_string_iff.mp hv

private theorem isClean_field (hfields : HoldsClean (.object fields))
    (h : field fields names [] readText = .ok t) : t.IsClean := by
  rcases field_ok_iff.mp h with ⟨-, rfl⟩ | ⟨key, w, hpresent, hread⟩
  · exact nofun
  · exact isClean_readText (holdsClean_present? hfields hpresent) hread

/-- A text that has to be there is one of the document. -/
theorem isClean_required (hfields : HoldsClean (.object fields)) {name : Text} {others : List Text}
    {t : Text} (h : required fields name others readText = .ok t) : t.IsClean := by
  obtain ⟨key, w, hpresent, hread⟩ := required_ok_iff.mp h
  exact isClean_readText (holdsClean_present? hfields hpresent) hread

/-- A text that may be left out holds no surrogate if the object holds none. -/
theorem isClean_optionalField (hfields : HoldsClean (.object fields)) {text : Option Text}
    (h : field fields names none (Lenient.optional readText) = .ok text) :
    (text.getD []).IsClean := by
  cases text with
  | none => exact nofun
  | some t =>
    obtain ⟨key, w, hpresent, hread⟩ := exists_of_field h
    exact isClean_readText (holdsClean_present? hfields hpresent) hread

private theorem isClean_readInfo {info : Info} (hv : HoldsClean v) (h : readInfo v = .ok info) :
    info.title.IsClean ∧ info.version.IsClean ∧ (info.description.getD []).IsClean := by
  simp only [readInfo, readObject_ok_iff, also, Checked.both_ok_iff, Except.ok.injEq] at h
  obtain ⟨fields, rfl, -, _, description, ⟨_, version, ⟨_, title, rfl, htitle, rfl⟩, hversion, rfl⟩,
    hdescription, rfl⟩ := h
  exact ⟨isClean_field hv htitle, isClean_field hv hversion, isClean_optionalField hv hdescription⟩

private theorem isClean_defaultText {declared : Fields Json} (h : HoldsClean (.object declared)) :
    (Server.defaultText declared).IsClean := by
  unfold Server.defaultText
  split
  · next v hv =>
    have hclean := holdsClean_of_get? h hv
    cases v with
    | string t => exact Value.allTexts_string_iff.mp hclean
    | other e => exact e.elim
    | _ => exact Literal.isClean_value _
  · exact nofun

private theorem holdsClean_readAnyFields {read : Fields Json} (hv : HoldsClean v)
    (h : readAnyFields v = .ok read) : HoldsClean (.object read) := by
  cases v with
  | object fields =>
    cases h
    exact hv
  | _ => cases h

/-- What a server's placeholders are replaced by are texts of the document or literals. -/
theorem isClean_filledUrl {server : Server} (hv : HoldsClean v) (h : readServer v = .ok server) :
    server.filledUrl.IsClean := by
  simp only [readServer, readObject_ok_iff, also, Checked.both_ok_iff, Except.ok.injEq] at h
  obtain ⟨fields, rfl, -, _, placeholders, ⟨_, url, rfl, hurl, rfl⟩, hplaceholders, rfl⟩ := h
  have hstart : url.IsClean := isClean_required hv hurl
  have hdeclared : ∀ f ∈ placeholders, HoldsClean (.object f.2) := by
    rcases field_ok_iff.mp hplaceholders with ⟨-, rfl⟩ | ⟨key, w, hpresent, hread⟩
    · exact List.forall_mem_nil _
    · intro f hf
      have hw := holdsClean_present? hv hpresent
      obtain ⟨declared, rfl, hall⟩ := readFields_ok_iff.mp hread
      obtain ⟨g, hg, -, hfields⟩ := exists_partner hall hf
      exact holdsClean_readAnyFields (Value.allTexts_object_iff.mp hw g hg).2 hfields
  clear hv hurl hplaceholders
  unfold Server.filledUrl
  dsimp only
  induction placeholders generalizing url with
  | nil => exact hstart
  | cons f rest ih =>
    obtain ⟨hf, hrest⟩ := List.forall_mem_cons.mp hdeclared
    exact ih _ (Text.isClean_replace hstart _ (isClean_defaultText hf)) hrest

private theorem holdsClean_orElse {default : Json} (hv : HoldsClean v)
    (hdefault : HoldsClean default) :
    HoldsClean (orElse v default) := by
  unfold orElse
  split
  · exact hdefault
  · exact hv

private theorem readDocument_of_ofSpec (h : (ofSpec v).outcome = .ok document) :
    ∃ fields paths, v = .object fields ∧ readDocument fields paths = .ok document := by
  unfold ofSpec at h
  split at h
  · next fields =>
    split at h
    · obtain ⟨paths, -, hread⟩ := Logged.bind_ok_iff.mp h
      split at hread
      · next other hother =>
        cases hread
        exact ⟨fields, paths, rfl, hother⟩
      · cases hread
    · cases h
  · cases h

/-- The path items of a value without surrogates hold none. -/
theorem holdsClean_pathItems (hv : HoldsClean v) :
    ∀ f ∈ pathItems v, f.1.IsClean ∧ HoldsClean (.object f.2) := by
  unfold pathItems
  split
  · next paths hpaths =>
    obtain ⟨fields, hfields, hget⟩ := Option.bind_eq_some_iff.mp hpaths
    have hobject : HoldsClean (.object paths) := by
      cases v with
      | object others =>
        cases hfields
        exact holdsClean_of_get? hv hget
      | _ => cases hfields
    exact fun f hf ↦ Value.allTexts_object_iff.mp hobject _ (mem_objects_iff.mp hf)
  · exact nofun

/-- The tools of a document have their paths from it, and the rest of their names from its keys. -/
theorem isClean_of_mem_ofDocument (hv : HoldsClean v) (h : (ofSpec v).outcome = .ok document) :
    ∀ tool ∈ Catalog.ofDocument document,
      tool.id.IsClean ∧ tool.method.IsClean ∧ tool.path.IsClean := by
  intro tool htool
  obtain ⟨⟨path, pathItem⟩, hitem, htool⟩ := List.mem_flatMap.mp htool
  obtain ⟨⟨method, operation⟩, hoperation, rfl⟩ := List.mem_map.mp htool
  obtain ⟨⟨_, item⟩, hdeclared, rfl, hbuilt⟩ := exists_partner (ofSpec_ok h) hitem
  obtain ⟨⟨_, object⟩, hobject, rfl, -⟩ :=
    exists_partner (buildPathItem_ok hbuilt) hoperation
  obtain ⟨key, hfield, hkey, rfl⟩ :=
    mem_methodObjects_iff.mp (Fields.mem_of_mem_ofList hobject)
  obtain ⟨hpath, hcleanItem⟩ := holdsClean_pathItems hv _ hdeclared
  have hmethod : key.toUpper.IsClean :=
    Text.isClean_toUpper (Value.allTexts_object_iff.mp hcleanItem _ hfield).1
  have hmethods : ∀ m ∈ Spec.methods, m.IsClean := by decide
  have hlower : key.toUpper.toUpper.toLower.IsClean := by
    rw [Spec.toUpper_toUpper_of_isMethod hkey, Spec.toLower_toUpper_of_isMethod hkey]
    exact hmethods _ (of_decide_eq_true hkey)
  exact ⟨Identifier.isClean_ofOperation hpath hlower, Text.isClean_toUpper hmethod, hpath⟩

/-- A document that is read from a value without surrogates tells none of what it is called, of
where its service is and of its operations. -/
theorem toldClean_of_ofSpec (hv : HoldsClean v) (h : (ofSpec v).outcome = .ok document) :
    ToldClean document := by
  have htools := isClean_of_mem_ofDocument hv h
  obtain ⟨fields, paths, rfl, hread⟩ := readDocument_of_ofSpec h
  simp only [readDocument, also, Checked.both_ok_iff, Checked.under_ok_iff,
    Except.ok.injEq] at hread
  obtain ⟨_, components, ⟨_, servers, ⟨_, info, ⟨_, version, rfl, -, rfl⟩, hinfo, rfl⟩, hservers,
    rfl⟩, -, rfl⟩ := hread
  have hempty : HoldsClean (.object []) := .object (List.forall_mem_nil _) (List.forall_mem_nil _)
  obtain ⟨htitle, hversion, hdescription⟩ :=
    isClean_readInfo (holdsClean_orElse (holdsClean_getD hv "info" .null) hempty) hinfo
  refine ⟨htitle, hversion, hdescription, ?_, htools⟩
  obtain ⟨items, hitems, hall⟩ := readList_ok_iff.mp hservers
  have hlist : ∀ w ∈ items, HoldsClean w := by
    rw [← Value.allTexts_array_iff, ← hitems]
    exact holdsClean_orElse (holdsClean_getD hv "servers" .null) (.array (List.forall_mem_nil _))
  cases hall with
  | nil => exact List.forall_mem_nil _
  | cons hserver _ => exact isClean_filledUrl (hlist _ List.mem_cons_self) hserver

end Reading

/-- A normal form is read back from its text, and holds no surrogates if the text does not. -/
theorem holdsClean_of_normalText {bytes : Bytes} {text : Text} {v : Json}
    (htext : Spec.normalText bytes = .ok text) (hclean : text.IsClean)
    (h : Json.parse? text (some Text.digitLimit) = some v) : HoldsClean v := by
  unfold Spec.normalText at htext
  split at htext
  · cases htext
  · next spec hspec =>
    cases htext
    have hnames := Json.distinctNames_of_decode? hspec
    have hdistinct : (Value.object (Spec.normalTree spec) : Json).DistinctNames :=
      Spec.Place.distinctNames_normal .document hnames
    have hnumbers := Spec.Place.numbersWithin_normal .document hnames
      (Json.numbersWithin_of_decode? hspec)
    rw [Json.parse?_write Json.Style.isLawful_compact hdistinct hnumbers nofun] at h
    cases h
    exact (Json.isClean_write_iff Json.Style.writesPlain_compact _).mp hclean
  · cases htext

private theorem holdsClean_accepted {spec : Fields Json} {inlined : Json}
    (hspec : HoldsClean (.object spec)) (h : accepted spec = .ok inlined) : HoldsClean inlined := by
  have hconstants := holdsClean_withoutConstants _ hspec
  unfold accepted at h
  split at h
  · cases h
  · cases h
  · next v hv =>
    have hclean := Spec.holdsClean_inlineReferences hconstants hv
    split at h
    · split at h
      · split at h
        · cases h
          exact hclean
        · cases h
        · cases h
      · cases h
    · cases h

/-- What a document is read from holds no surrogates. -/
theorem exists_of_parse {bytes : Bytes} {document : Document}
    (h : (parse bytes).outcome = .ok document) :
    ∃ v, HoldsClean v ∧ (ofSpec v).outcome = .ok document := by
  unfold parse at h
  split at h
  · cases h
  · next text htext =>
    split at h
    · next hclean =>
      split at h
      · next spec hspec =>
        split at h
        · obtain ⟨inlined, hinlined, hread⟩ := Logged.bind_ok_iff.mp h
          have hclean : text.IsClean := by simpa [IsClean] using hclean
          have hread := Logged.mapError_ok_iff.mp hread
          exact ⟨inlined,
            holdsClean_accepted (holdsClean_of_normalText htext hclean hspec) hinlined, hread⟩
        · cases h
      · cases h
    · cases h

/-- What is told of a document that is read from bytes holds no surrogate. -/
theorem toldClean_of_parse {bytes : Bytes} {document : Document}
    (h : (parse bytes).outcome = .ok document) : ToldClean document := by
  obtain ⟨v, hv, hread⟩ := exists_of_parse h
  exact toldClean_of_ofSpec hv hread

end Document

end ApiTools
