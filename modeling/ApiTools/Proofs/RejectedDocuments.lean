import ApiTools.Proofs.EffectiveParameters

/-!
# Rejected documents

A document that does not validate is reported with the operation or the part where it does not. The
parameters that a path item shares are validated as parts of the operations that do not override
them, and once more by themselves: one that every operation of its path item overrides gets past the
operations, and fails without a report (`reported_iff_not_hasStray`).
-/

namespace ApiTools

/-- A report of what does not validate: an operation, or the document around the operations. -/
inductive DocumentError.IsReport : DocumentError → Prop where
  | operation (method path : Text) (issues : List Issue) :
    IsReport (.invalidOperation method path issues)
  | document (issues : List Issue) : IsReport (.invalidDocument issues)

namespace Document

/-- Is a field a text, if it is present? -/
def mayHaveText (fields : Fields Json) (name : Text) : Bool :=
  match fields.get? name with
  | none => true
  | some (.string _) => true
  | _ => false

/-- Does an object list parameters, if it has any, with texts for their names and places? -/
def listsParameters (fields : Fields Json) : Bool :=
  match (fields.get? "parameters").getD .null with
  | .null => true
  | .array entries => entries.all fun entry ↦
    match entry with
    | .object entry => mayHaveText entry "name" && mayHaveText entry "in"
    | _ => true
  | _ => false

/-- Does the body of an operation, if it has one, have an object for its content, if any? -/
def hasContent (object : Fields Json) : Bool :=
  match object.get? "requestBody" with
  | some (.object body) =>
    match (Fields.get? body "content").getD .null with
    | .null => true
    | .object _ => true
    | _ => false
  | _ => true

/-- Does a path item list parameters, and have operations that do, with content in their bodies? -/
def isShapedItem (item : Fields Json) : Bool :=
  listsParameters item && (methodObjects item).all fun g ↦ listsParameters g.2 && hasContent g.2

/-- Does a document have path items of the shape that is gone through before anything is
validated? -/
def isShaped (spec : Json) : Bool :=
  match spec.field? "paths" with
  | some (.object _) => (pathItems spec).all fun f ↦ isShapedItem f.2
  | _ => false

/-- An operation validates, with the shared parameters that it does not override. -/
def OperationReads (item object : Fields Json) : Prop :=
  ∃ body operation, bodyEntry ((object.get? "requestBody").getD .null) = .ok body ∧
    readOperation (.object ((object.set "parameters" (.array
      (effectiveEntries (declaredParameters item) (declaredParameters object)))).set
        "requestBody" body)) = .ok operation

/-- All operations of a path item validate. -/
def OperationsRead (item : Fields Json) : Prop :=
  ∀ g ∈ methodObjects item, OperationReads item g.2

/-- All parameters that a path item shares validate by themselves. -/
def SharedRead (item : Fields Json) : Prop :=
  ∀ entry ∈ declaredParameters item, ∃ p, readParameter entry = .ok p

/-- Of the path items with something that does not validate, the first one has operations that do:
all that does not is among the parameters that it shares. -/
def HasStray (items : Fields (Fields Json)) : Prop :=
  ∃ before path item after, items = before ++ (path, item) :: after ∧
    (∀ f ∈ before, OperationsRead f.2 ∧ SharedRead f.2) ∧ OperationsRead item ∧ ¬SharedRead item

/-- A value, or a report of what does not validate. -/
def IsReported {α : Type} (outcome : Except DocumentError α) : Prop :=
  (∃ a, outcome = .ok a) ∨ ∃ e, outcome = .error e ∧ e.IsReport

/-- A shared parameter that does not validate by itself is not reported. -/
theorem not_isReported {α : Type} {outcome : Except DocumentError α} {issues : List Issue}
    (h : outcome = .error (.invalidSharedParameter issues)) : ¬IsReported outcome := by
  rw [h]
  rintro (⟨a, hok⟩ | ⟨e, herror, hreport⟩)
  · cases hok
  · cases herror
    cases hreport

section Shape

variable {fields object : Fields Json}

/-- Listed parameters are gone through. -/
theorem outcome_parameterEntries (h : listsParameters fields = true) :
    (parameterEntries ((fields.get? "parameters").getD .null)).outcome =
      .ok (declaredParameters fields) := by
  have hentries : ∃ entries,
      (parameterEntries ((fields.get? "parameters").getD .null)).outcome = .ok entries := by
    unfold listsParameters at h
    split at h
    · next hnull =>
      rw [hnull]
      exact ⟨[], rfl⟩
    · next entries hlist =>
      rw [hlist, parameterEntries]
      split
      · exact ⟨[], rfl⟩
      · exact ⟨_, outcome_keepParameters entries⟩
    · cases h
  obtain ⟨entries, hentries⟩ := hentries
  rw [hentries, parameterEntries_ok hentries]

/-- A field that has to be there and may be a text is one. -/
theorem exists_string {name : Text} (hhas : fields.has name = true)
    (h : mayHaveText fields name = true) : ∃ t, (fields.get? name).getD .null = .string t := by
  obtain ⟨v, hv⟩ := Option.isSome_iff_exists.mp hhas
  rw [mayHaveText, hv] at h
  rw [hv]
  cases v with
  | string t => exact ⟨t, rfl⟩
  | _ => cases h

/-- Listed parameters have their names and places as texts. -/
theorem hasPlace_of_listsParameters (h : listsParameters fields = true) :
    ∀ entry ∈ declaredParameters fields, ∃ name location, HasPlace entry name location := by
  intro entry hentry
  have hparameter := isParameter_of_mem_declaredParameters hentry
  unfold declaredParameters at hentry
  split at hentry
  · next entries hlist =>
    rw [listsParameters, hlist] at h
    have htexts := List.all_eq_true.mp h entry (List.mem_filter.mp hentry).1
    cases entry with
    | object entry =>
      have hpresent := Bool.and_eq_true_iff.mp hparameter
      have htexts := Bool.and_eq_true_iff.mp htexts
      obtain ⟨name, hname⟩ := exists_string hpresent.1 htexts.1
      obtain ⟨location, hlocation⟩ := exists_string hpresent.2 htexts.2
      exact ⟨name, location, hname, hlocation⟩
    | _ => cases hparameter
  · cases hentry

/-- A body with content is gone through. -/
theorem exists_bodyEntry (h : hasContent object = true) :
    ∃ body, bodyEntry ((object.get? "requestBody").getD .null) = .ok body := by
  unfold hasContent at h
  cases hget : object.get? "requestBody" with
  | none => exact ⟨.null, rfl⟩
  | some v =>
    cases v with
    | object body =>
      rw [hget] at h
      have hcontent :
          ∃ content, contentEntries ((Fields.get? body "content").getD .null) = .ok content := by
        dsimp only at h
        split at h
        · next hnull =>
          rw [hnull]
          exact ⟨[], rfl⟩
        · next content hobject =>
          rw [hobject, contentEntries]
          split
          · exact ⟨[], rfl⟩
          · exact ⟨_, rfl⟩
        · cases h
      rw [Option.getD_some, bodyEntry]
      split
      · exact ⟨.null, rfl⟩
      · obtain ⟨content, hcontent⟩ := hcontent
        rw [hcontent]
        exact ⟨_, rfl⟩
    | _ => exact ⟨.null, rfl⟩

end Shape

section Build

variable {path key : Text} {fields item object : Fields Json}

/-- An operation of a shaped path item is built if it validates, and is reported if not. -/
theorem buildOperation_cases (hshared : listsParameters item = true)
    (hown : listsParameters object = true) (hcontent : hasContent object = true) :
    (OperationReads item object ∧ ∃ operation,
      (buildOperation path key (declaredParameters item) object).outcome = .ok operation) ∨
      (¬OperationReads item object ∧ ∃ e,
        (buildOperation path key (declaredParameters item) object).outcome = .error e ∧
          e.IsReport) := by
  obtain ⟨body, hbody⟩ := exists_bodyEntry hcontent
  have hmerged := outcome_mergeParameters (hasPlace_of_listsParameters hshared)
    (hasPlace_of_listsParameters hown)
  simp only [buildOperation, Logged.outcome_bind, outcome_parameterEntries hown, hmerged,
    Logged.ofExcept, hbody, Except.bind]
  split
  · next operation hread => exact .inl ⟨⟨body, operation, hbody, hread⟩, operation, rfl⟩
  · next issues hread =>
    refine .inr ⟨?_, _, rfl, .operation ..⟩
    rintro ⟨other, operation, hother, hoperation⟩
    rw [hbody] at hother
    cases hother
    rw [hread] at hoperation
    cases hoperation

/-- The operations of a shaped path item are built if all of them validate, and one of them is
reported if not, whatever operations there are before. -/
theorem buildOperations_cases {shared : Fields Json} {operations : Fields Operation}
    (hshared : listsParameters shared = true)
    (hown : ∀ g ∈ methodObjects item, (listsParameters g.2 && hasContent g.2) = true) :
    ((∀ g ∈ methodObjects item, OperationReads shared g.2) ∧ ∃ built,
      (buildOperations path (declaredParameters shared) item operations).outcome = .ok built) ∨
      ((¬∀ g ∈ methodObjects item, OperationReads shared g.2) ∧ ∃ e,
        (buildOperations path (declaredParameters shared) item operations).outcome = .error e ∧
          e.IsReport) := by
  induction item generalizing operations with
  | nil => exact .inl ⟨List.forall_mem_nil _, _, rfl⟩
  | cons f rest ih =>
    rcases buildOperations_step path (declaredParameters shared) f rest operations with
      ⟨object, -, hcons, hstep⟩ | ⟨hskip, hstep⟩
    · rw [hcons, List.forall_mem_cons] at hown
      obtain ⟨hfirst, hown⟩ := hown
      have hshaped := Bool.and_eq_true_iff.mp hfirst
      rw [hcons, List.forall_mem_cons, hstep, Logged.outcome_bind]
      rcases buildOperation_cases hshared hshaped.1 hshaped.2 with
        ⟨hreads, operation, hbuilt⟩ | ⟨hnot, e, herror, hreport⟩
      · rw [hbuilt]
        exact (ih hown).imp (.imp_left (.intro hreads)) (.imp_left fun h hall ↦ h hall.2)
      · rw [herror]
        exact .inr ⟨fun hall ↦ hnot hall.1, e, rfl, hreport⟩
    · rw [hskip] at hown ⊢
      rw [hstep]
      exact ih hown

/-- Shared parameters are built if all of them validate, and fail without a report if not. -/
theorem buildShared_cases (entries : List Json) :
    ((∀ entry ∈ entries, ∃ p, readParameter entry = .ok p) ∧ ∃ parameters,
      (buildShared entries).outcome = .ok parameters) ∨
      ((¬∀ entry ∈ entries, ∃ p, readParameter entry = .ok p) ∧ ∃ issues,
        (buildShared entries).outcome = .error (.invalidSharedParameter issues)) := by
  induction entries with
  | nil => exact .inl ⟨List.forall_mem_nil _, [], rfl⟩
  | cons entry rest ih =>
    rw [buildShared, List.forall_mem_cons]
    split
    · next p hread =>
      rw [Logged.outcome_bind]
      rcases ih with ⟨hall, parameters, hbuilt⟩ | ⟨hnot, issues, herror⟩
      · rw [hbuilt]
        exact .inl ⟨⟨⟨p, hread⟩, hall⟩, _, rfl⟩
      · rw [herror]
        exact .inr ⟨fun hall ↦ hnot hall.2, issues, rfl⟩
    · next issues hread =>
      refine .inr ⟨?_, issues, rfl⟩
      rintro ⟨⟨p, hp⟩, -⟩
      rw [hread] at hp
      cases hp

/-- In a shaped path item the operations come first, then the shared parameters. -/
theorem buildPathItem_cases (h : isShapedItem item = true) :
    (OperationsRead item ∧ SharedRead item ∧ ∃ pathItem,
      (buildPathItem path item).outcome = .ok pathItem) ∨
      (OperationsRead item ∧ ¬SharedRead item ∧ ∃ issues,
        (buildPathItem path item).outcome = .error (.invalidSharedParameter issues)) ∨
      (¬OperationsRead item ∧ ∃ e,
        (buildPathItem path item).outcome = .error e ∧ e.IsReport) := by
  obtain ⟨hshared, hown⟩ := Bool.and_eq_true_iff.mp h
  simp only [buildPathItem, Logged.outcome_bind, outcome_parameterEntries hshared, Except.bind]
  rcases buildOperations_cases hshared (List.all_eq_true.mp hown) with
    ⟨hreads, operations, hbuilt⟩ | ⟨hnot, e, herror, hreport⟩
  · rw [hbuilt]
    rcases buildShared_cases (declaredParameters item) with
      ⟨hshared, parameters, hbuilt⟩ | ⟨hnot, issues, herror⟩
    · rw [hbuilt]
      exact .inl ⟨hreads, hshared, _, rfl⟩
    · rw [herror]
      exact .inr (.inl ⟨hreads, hnot, issues, rfl⟩)
  · rw [herror]
    exact .inr (.inr ⟨hnot, e, rfl, hreport⟩)

/-- A stray parameter is in the first path item, or in a later one while the first one validates. -/
theorem hasStray_cons {f : Text × Fields Json} {rest : Fields (Fields Json)} :
    HasStray (f :: rest) ↔ OperationsRead f.2 ∧ (SharedRead f.2 → HasStray rest) := by
  constructor
  · rintro ⟨before, path, item, after, hsplit, hbefore, hoperations, hshared⟩
    cases before with
    | nil =>
      cases hsplit
      exact ⟨hoperations, fun hread ↦ absurd hread hshared⟩
    | cons g before =>
      cases hsplit
      obtain ⟨hfirst, hbefore⟩ := List.forall_mem_cons.mp hbefore
      exact ⟨hfirst.1, fun _ ↦ ⟨before, path, item, after, rfl, hbefore, hoperations, hshared⟩⟩
  · rintro ⟨hoperations, hrest⟩
    by_cases hshared : SharedRead f.2
    · obtain ⟨before, path, item, after, rfl, hbefore, hstray⟩ := hrest hshared
      exact ⟨f :: before, path, item, after, rfl,
        List.forall_mem_cons.mpr ⟨⟨hoperations, hshared⟩, hbefore⟩, hstray⟩
    · exact ⟨[], f.1, f.2, rest, rfl, nofun, hoperations, hshared⟩

/-- Shaped path items are built or reported, unless there is a stray parameter. -/
theorem buildPaths_cases (h : ∀ f ∈ objects fields, isShapedItem f.2 = true) :
    (¬HasStray (objects fields) ∧ IsReported (buildPaths fields).outcome) ∨
      (HasStray (objects fields) ∧ ∃ issues,
        (buildPaths fields).outcome = .error (.invalidSharedParameter issues)) := by
  induction fields with
  | nil =>
    refine .inl ⟨?_, .inl ⟨[], rfl⟩⟩
    rintro ⟨before, path, item, after, hsplit, -⟩
    exact List.append_ne_nil_of_right_ne_nil before (List.cons_ne_nil _ after) hsplit.symm
  | cons f rest ih =>
    obtain ⟨path, v⟩ := f
    cases v with
    | object item =>
      have hcons : objects ((path, .object item) :: rest) = (path, item) :: objects rest := rfl
      rw [hcons, List.forall_mem_cons] at h
      rw [hcons, hasStray_cons, buildPaths, Logged.outcome_bind]
      rcases buildPathItem_cases h.1 with ⟨hoperations, hshared, pathItem, hbuilt⟩ |
        ⟨hoperations, hshared, issues, herror⟩ | ⟨hoperations, e, herror, hreport⟩
      · rw [hbuilt]
        have hstray : (OperationsRead item ∧ (SharedRead item → HasStray (objects rest))) ↔
            HasStray (objects rest) := by
          rw [and_iff_right hoperations, forall_prop_of_true hshared]
        simp only [hstray, Except.bind, Logged.outcome_bind]
        rcases ih h.2 with
          ⟨hnone, ⟨others, hothers⟩ | ⟨e, herror, hreport⟩⟩ | ⟨hlater, issues, herror⟩
        · rw [hothers]
          exact .inl ⟨hnone, .inl ⟨_, rfl⟩⟩
        · rw [herror]
          exact .inl ⟨hnone, .inr ⟨e, rfl, hreport⟩⟩
        · rw [herror]
          exact .inr ⟨hlater, issues, rfl⟩
      · rw [herror]
        exact .inr ⟨⟨hoperations, fun hread ↦ absurd hread hshared⟩, issues, rfl⟩
      · rw [herror]
        exact .inl ⟨fun hstray ↦ hoperations hstray.1, .inr ⟨e, rfl, hreport⟩⟩
    | _ => exact ih h

end Build

section Spec

variable {spec : Json}

/-- A shaped document has an object for its paths, with shaped path items. -/
theorem exists_paths (h : isShaped spec = true) :
    ∃ fields items, spec = .object fields ∧
      Fields.get? fields "paths" = some (.object items) ∧
      ∀ f ∈ pathItems spec, isShapedItem f.2 = true := by
  unfold isShaped at h
  split at h
  · next items hpaths =>
    cases spec with
    | object fields => exact ⟨fields, items, rfl, hpaths, List.all_eq_true.mp h⟩
    | _ => cases hpaths
  · cases h

/-- A shaped document has a model or is reported, unless there is a stray parameter. -/
theorem ofSpec_cases (h : isShaped spec = true) :
    (¬HasStray (pathItems spec) ∧ IsReported (ofSpec spec).outcome) ∨
      (HasStray (pathItems spec) ∧ ∃ issues,
        (ofSpec spec).outcome = .error (.invalidSharedParameter issues)) := by
  obtain ⟨fields, items, rfl, hpaths, hitems⟩ := exists_paths h
  have hobjects : pathItems (.object fields) = objects items := by
    rw [pathItems, show Value.field? (.object fields) "paths" = _ from hpaths]
  have hor : orElse ((Fields.get? fields "paths").getD .null) (.object []) = .object items := by
    rw [hpaths, Option.getD_some, orElse]
    split
    · next hblank => rw [List.isEmpty_iff.mp hblank]
    · rfl
  rw [hobjects] at hitems ⊢
  rw [ofSpec, hor]
  simp only [Logged.outcome_bind]
  rcases buildPaths_cases hitems with
    ⟨hnone, ⟨paths, hbuilt⟩ | ⟨e, herror, hreport⟩⟩ | ⟨hstray, issues, herror⟩
  · refine .inl ⟨hnone, ?_⟩
    rw [hbuilt, Except.bind]
    split
    · exact .inl ⟨_, rfl⟩
    · exact .inr ⟨_, rfl, .document _⟩
  · rw [herror]
    exact .inl ⟨hnone, .inr ⟨e, rfl, hreport⟩⟩
  · rw [herror]
    exact .inr ⟨hstray, issues, rfl⟩

/-- Where the operations validate, they override the shared parameters that do not. -/
theorem overridden_of_operationsRead {item : Fields Json} (h : OperationsRead item) {entry : Json}
    (hentry : entry ∈ declaredParameters item) (hread : ∀ p, readParameter entry ≠ .ok p) :
    ∀ g ∈ methodObjects item, placeOf entry ∈ (declaredParameters g.2).map placeOf := by
  intro g hg
  by_contra hplace
  obtain ⟨body, operation, -, hoperation⟩ := h g hg
  have heffective :
      entry ∈ effectiveEntries (declaredParameters item) (declaredParameters g.2) :=
    List.mem_append_left _ (List.mem_filter.mpr ⟨hentry, decide_eq_true hplace⟩)
  obtain ⟨p, -, hp⟩ := exists_partner (forall₂_of_readOperation hoperation).flip heffective
  exact hread p hp

/-- A shaped document has a model or is reported exactly if there is no stray parameter. With one it
fails without a report, and every operation of the path item overrides what does not validate. -/
theorem reported_iff_not_hasStray (h : isShaped spec = true) :
    (IsReported (ofSpec spec).outcome ↔ ¬HasStray (pathItems spec)) ∧
      ((∃ issues, (ofSpec spec).outcome = .error (.invalidSharedParameter issues)) ↔
        HasStray (pathItems spec)) ∧
      ∀ f ∈ pathItems spec, OperationsRead f.2 → ∀ entry ∈ declaredParameters f.2,
        (∀ p, readParameter entry ≠ .ok p) →
          ∀ g ∈ methodObjects f.2, placeOf entry ∈ (declaredParameters g.2).map placeOf := by
  refine ⟨?_, ?_, fun f _ hreads entry hentry hread ↦
    overridden_of_operationsRead hreads hentry hread⟩
  · rcases ofSpec_cases h with ⟨hnone, hreported⟩ | ⟨hstray, issues, herror⟩
    · exact iff_of_true hreported hnone
    · exact iff_of_false (not_isReported herror) (not_not_intro hstray)
  · rcases ofSpec_cases h with ⟨hnone, hreported⟩ | ⟨hstray, issues, herror⟩
    · exact iff_of_false (fun ⟨issues, herror⟩ ↦ not_isReported herror hreported) hnone
    · exact iff_of_true ⟨issues, herror⟩ hstray

/-- A shared parameter is required perhaps, and the only operation overrides it. -/
private def straySpec : Json :=
  .object [("info", .object [("title", .string "t"), ("version", .string "1")]),
    ("openapi", .string "3.0.0"), ("paths", .object [("/a", .object [
      ("get", .object [("parameters", .array [
        .object [("in", .string "query"), ("name", .string "a")]])]),
      ("parameters", .array [.object [("in", .string "query"), ("name", .string "a"),
        ("required", .string "maybe")]])])])]

private theorem outcome_straySpec : (ofSpec straySpec).outcome =
    .error (.invalidSharedParameter [⟨[.field "required"], .boolParsing⟩]) := by decide +kernel

/-- A document fails without a report where an operation overrides a shared parameter that does not
validate. -/
theorem reported_iff_not_hasStray_overridden :
    isShaped straySpec = true ∧ HasStray (pathItems straySpec) ∧
      (IsReported (ofSpec straySpec).outcome ↔ ¬HasStray (pathItems straySpec)) := by
  have hshaped : isShaped straySpec = true := by decide +kernel
  obtain ⟨hreported, hstray, -⟩ := reported_iff_not_hasStray hshaped
  exact ⟨hshaped, hstray.mp ⟨_, outcome_straySpec⟩, hreported⟩

/-- Not every shaped document that does not validate is reported. -/
theorem unreported_overridden :
    isShaped straySpec = true ∧ (ofSpec straySpec).outcome =
        .error (.invalidSharedParameter [⟨[.field "required"], .boolParsing⟩]) ∧
      ¬IsReported (ofSpec straySpec).outcome :=
  ⟨by decide +kernel, outcome_straySpec, not_isReported outcome_straySpec⟩

end Spec

end Document

end ApiTools
