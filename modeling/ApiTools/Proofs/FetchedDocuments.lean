import ApiTools.Document.Source
import ApiTools.Proofs.JsonRoundTrip
import ApiTools.Proofs.UnfoldedData

/-!
# Fetched documents

What a source has is given as it is if it is JSON already, or no YAML mapping. A mapping is given as
JSON, which stays as it is when it is converted again. All of this holds with any loader of YAML. Of
the ways to fail, those of the source itself are told apart from those of what the source has: YAML
on which its loader stops otherwise than by refusing it, and mappings that cannot be unfolded to
JSON (`fetched_iff_isConvertible`).
-/

namespace ApiTools

/-- Was nothing got from a source? What is got may be unusable, and no file may have the path. -/
def FetchError.isOfSource : FetchError → Bool
  | .failed _ | .refused _ _ | .unreadable => true
  | .path _ | .yaml _ => false

namespace Document

open Yaml (Data)

/-- A document is there, or the source gave nothing. -/
def IsFetched (outcome : Except FetchError Bytes) : Prop :=
  (∃ bytes, outcome = .ok bytes) ∨ ∃ e, outcome = .error e ∧ e.isOfSource = true

private theorem isFetched_error_iff {e : FetchError} : IsFetched (.error e) ↔ e.isOfSource =
    true := by
  simp [IsFetched]

/-- Can there be a source of this name? -/
def isSource (source : Text) : Bool := isOnWeb source || (Files.checkPath source).isOk

/-- What a loader makes of content, if it is asked: JSON is left alone. -/
def loaded? (load : Yaml.Loader) (content : Bytes) : Option (Except Yaml.Fault Data) :=
  if (Json.decode? content).isSome then none else some (load content)

/-- Content that is a mapping in YAML. -/
def IsMapping (load : Yaml.Loader) (content : Bytes) : Prop :=
  ∃ data, loaded? load content = some (.ok data) ∧ data.isMapping = true

/-- Content that the loader of YAML loads or refuses, and that has a form in JSON if it is a
mapping. -/
structure IsConvertible (load : Yaml.Loader) (content : Bytes) : Prop where
  loads : ∀ fault, loaded? load content = some (.error fault) → fault = .malformed
  unfolds : ∀ data, loaded? load content = some (.ok data) → data.isMapping = true →
    data.IsUnfoldable

section Content

variable {load : Yaml.Loader} {content : Bytes}

/-- Content that is loaded is no JSON. -/
private theorem of_loaded? {loaded : Except Yaml.Fault Data}
    (h : loaded? load content = some loaded) :
    Json.decode? content = none ∧ load content = loaded := by
  unfold loaded? at h
  split at h
  · cases h
  · next hjson => exact ⟨Option.not_isSome_iff_eq_none.mp hjson, Option.some.inj h⟩

private theorem asJson_of_none (h : loaded? load content = none) :
    asJson content load = .ok content := by
  unfold loaded? at h
  unfold asJson
  split
  · rfl
  · next hjson =>
    rw [if_neg hjson] at h
    cases h

private theorem asJson_of_error {fault : Yaml.Fault}
    (h : loaded? load content = some (.error fault)) :
    asJson content load = if fault = .malformed then .ok content else .error (.yaml fault) := by
  obtain ⟨hjson, hload⟩ := of_loaded? h
  rw [asJson, hjson, hload]
  cases fault <;> rfl

private theorem asJson_of_other {data : Data} (h : loaded? load content = some (.ok data))
    (hmapping : data.isMapping = false) : asJson content load = .ok content := by
  obtain ⟨hjson, hload⟩ := of_loaded? h
  simp only [asJson, hjson, hload, hmapping, Option.isSome_none, Bool.false_eq_true, ↓reduceIte]

/-- A mapping is unfolded to an object, or is a failure. -/
theorem asJson_of_mapping {data : Data} (h : loaded? load content = some (.ok data))
    (hmapping : data.isMapping = true) :
    (data.IsUnfoldable ∧ ∃ bytes fields, asJson content load = .ok bytes ∧
      Json.decode? bytes = some (.object fields)) ∨
      (¬data.IsUnfoldable ∧ ∃ fault, asJson content load = .error (.yaml fault)) := by
  obtain ⟨hjson, hload⟩ := of_loaded? h
  simp only [asJson, hjson, hload, hmapping, Option.isSome_none, Bool.false_eq_true, ↓reduceIte]
  rw [← Yaml.Data.toJson_isOk_iff]
  cases hunfold : data.toJson with
  | ok v =>
    obtain ⟨fields, rfl⟩ := Yaml.Data.exists_object_of_toJson_ok hunfold hmapping
    obtain ⟨others, hread⟩ := Json.exists_decode?_write Json.Style.isLawful_spaced
      (Yaml.Data.numbersWithin_of_unfold_ok hunfold)
    exact .inl ⟨⟨_, rfl⟩, _, others, rfl, hread⟩
  | error fault => exact .inr ⟨nofun, fault, rfl⟩

private theorem isConvertible_iff {loaded : Option (Except Yaml.Fault Data)}
    (h : loaded? load content = loaded) :
    IsConvertible load content ↔ (∀ fault, loaded = some (.error fault) → fault = .malformed) ∧
      ∀ data, loaded = some (.ok data) → data.isMapping = true → data.IsUnfoldable := by
  subst h
  exact ⟨fun ⟨hloads, hunfolds⟩ ↦ ⟨hloads, hunfolds⟩, fun ⟨hloads, hunfolds⟩ ↦ ⟨hloads, hunfolds⟩⟩

private theorem isMapping_iff {loaded : Option (Except Yaml.Fault Data)}
    (h : loaded? load content = loaded) :
    IsMapping load content ↔ ∃ data, loaded = some (.ok data) ∧ data.isMapping = true := by
  subst h
  rfl

/-- Convertible content is left as it is unless it is a mapping, which becomes an object. Other
content is a failure. -/
theorem asJson_cases (load : Yaml.Loader) (content : Bytes) :
    (IsConvertible load content ∧
      ((¬IsMapping load content ∧ asJson content load = .ok content) ∨
        (IsMapping load content ∧ ∃ bytes fields, asJson content load = .ok bytes ∧
          Json.decode? bytes = some (.object fields)))) ∨
      (¬IsConvertible load content ∧ ∃ fault, asJson content load = .error (.yaml fault)) := by
  match hloaded : loaded? load content with
  | none =>
    rw [isConvertible_iff hloaded, isMapping_iff hloaded]
    refine .inl ⟨⟨nofun, nofun⟩, .inl ⟨?_, asJson_of_none hloaded⟩⟩
    rintro ⟨data, ⟨⟩, -⟩
  | some (.error fault) =>
    have hjson := asJson_of_error hloaded
    by_cases hfault : fault = .malformed
    · rw [if_pos hfault] at hjson
      rw [isConvertible_iff hloaded, isMapping_iff hloaded]
      refine .inl ⟨⟨?_, nofun⟩, .inl ⟨?_, hjson⟩⟩
      · rintro _ ⟨⟩
        exact hfault
      · rintro ⟨data, ⟨⟩, -⟩
    · rw [if_neg hfault] at hjson
      exact .inr ⟨fun h ↦ hfault (h.loads fault hloaded), fault, hjson⟩
  | some (.ok data) =>
    cases hmapping : data.isMapping with
    | true =>
      rcases asJson_of_mapping hloaded hmapping with ⟨hunfold, hobject⟩ | ⟨hunfold, hfault⟩
      · refine .inl ⟨(isConvertible_iff hloaded).mpr ⟨nofun, ?_⟩,
          .inr ⟨⟨data, hloaded, hmapping⟩, hobject⟩⟩
        rintro _ ⟨⟩ -
        exact hunfold
      · exact .inr ⟨fun h ↦ hunfold (h.unfolds data hloaded hmapping), hfault⟩
    | false =>
      rw [isConvertible_iff hloaded, isMapping_iff hloaded]
      refine .inl ⟨⟨nofun, ?_⟩, .inl ⟨?_, asJson_of_other hloaded hmapping⟩⟩
      · rintro _ ⟨⟩ htrue
        exact absurd (hmapping.symm.trans htrue) Bool.false_ne_true
      · rintro ⟨_, ⟨⟩, htrue⟩
        exact absurd (hmapping.symm.trans htrue) Bool.false_ne_true

/-- JSON is left as it is. -/
theorem asJson_of_isSome (load : Yaml.Loader) (h : (Json.decode? content).isSome = true) :
    asJson content load = .ok content := by
  rw [asJson, if_pos h]

end Content

section Fetch

variable {sources : Sources} {source : Text} {content bytes : Bytes} {load : Yaml.Loader}

/-- A source of a possible name gives something or nothing; any other name is refused. -/
theorem retrieve_cases (sources : Sources) (source : Text) :
    (isSource source = true ∧ ((∃ content, (retrieve sources source).1 = .ok content) ∨
      ∃ e, (retrieve sources source).1 = .error e ∧ e.isOfSource = true)) ∨
      (isSource source = false ∧ ∃ e, (retrieve sources source).1 = .error (.path e)) := by
  unfold isSource retrieve
  cases isOnWeb source with
  | true =>
    refine .inl ⟨rfl, ?_⟩
    show (∃ content, replied source sources.replies.next.1 = .ok content) ∨
      ∃ e, replied source sources.replies.next.1 = .error e ∧ e.isOfSource = true
    cases sources.replies.next.1 with
    | failure message => exact .inr ⟨_, rfl, rfl⟩
    | response status content _ =>
      rw [replied]
      split
      · exact .inl ⟨content, rfl⟩
      · exact .inr ⟨_, rfl, rfl⟩
  | false =>
    simp only [Bool.false_eq_true, ↓reduceIte, readFile, Bool.false_or]
    cases Files.checkPath source with
    | error e => exact .inr ⟨rfl, e, rfl⟩
    | ok _ =>
      refine .inl ⟨rfl, ?_⟩
      cases sources.files.read? source with
      | none => exact .inr ⟨_, rfl, rfl⟩
      | some content => exact .inl ⟨content, rfl⟩

/-- What was given by a source is brought into JSON. -/
theorem fetch_of_retrieve_ok (load : Yaml.Loader) (h : (retrieve sources source).1 = .ok content) :
    (fetch sources source load).1 = asJson content load := by
  show (retrieve sources source).1.bind (asJson · load) = asJson content load
  rw [h]
  rfl

/-- What went wrong at a source is what went wrong with the document. -/
theorem fetch_of_retrieve_error (load : Yaml.Loader) {e : FetchError}
    (h : (retrieve sources source).1 = .error e) : (fetch sources source load).1 = .error e := by
  show (retrieve sources source).1.bind (asJson · load) = .error e
  rw [h]
  rfl

/-- Content that is given is left as it is when it is converted again. -/
theorem asJson_of_asJson (h : asJson content load = .ok bytes) :
    asJson bytes load = .ok bytes ∧
      (IsMapping load content → ∃ fields, Json.decode? bytes = some (.object fields)) := by
  rcases asJson_cases load content with
    ⟨-, ⟨hmapping, hsame⟩ | ⟨-, object, fields, hobject, hread⟩⟩ | ⟨-, fault, hfault⟩
  · rw [hsame] at h
    cases h
    exact ⟨hsame, fun hcontent ↦ absurd hcontent hmapping⟩
  · rw [hobject] at h
    cases h
    exact ⟨asJson_of_isSome load (by rw [hread]; rfl), fun _ ↦ ⟨fields, hread⟩⟩
  · rw [hfault] at h
    cases h

/-- Content is given, or not, as its conversion says. -/
theorem isFetched_asJson_iff (load : Yaml.Loader) (content : Bytes) :
    IsFetched (asJson content load) ↔ IsConvertible load content := by
  rcases asJson_cases load content with
    ⟨hconvertible, ⟨-, hsame⟩ | ⟨-, object, fields, hobject, -⟩⟩ | ⟨hnot, fault, hfault⟩
  · exact iff_of_true (.inl ⟨content, hsame⟩) hconvertible
  · exact iff_of_true (.inl ⟨object, hobject⟩) hconvertible
  · rw [hfault, isFetched_error_iff]
    exact iff_of_false nofun hnot

/-- With any loader of YAML, fetching ends with a document or with a failure of the source exactly
if the source has a possible name and its content is convertible. JSON, and convertible content that
is no mapping, is given as it is; a mapping is given as an object; and what is given stays as it is
when it is converted again. -/
theorem fetched_iff_isConvertible (load : Yaml.Loader) (sources : Sources) (source : Text) :
    (IsFetched (fetch sources source load).1 ↔ isSource source = true ∧
      ∀ content, (retrieve sources source).1 = .ok content → IsConvertible load content) ∧
    ∀ content, (retrieve sources source).1 = .ok content →
      ((Json.decode? content).isSome = true ∨
          (IsConvertible load content ∧ ¬IsMapping load content) →
        (fetch sources source load).1 = .ok content) ∧
      ∀ bytes, (fetch sources source load).1 = .ok bytes → asJson bytes load = .ok bytes ∧
        (IsMapping load content → ∃ fields, Json.decode? bytes = some (.object fields)) := by
  constructor
  · rcases retrieve_cases sources source with
      ⟨hsource, ⟨content, hcontent⟩ | ⟨e, herror, he⟩⟩ | ⟨hsource, e, herror⟩
    · rw [fetch_of_retrieve_ok load hcontent, isFetched_asJson_iff, hcontent]
      simp [hsource]
    · rw [fetch_of_retrieve_error load herror, isFetched_error_iff, herror]
      exact iff_of_true he ⟨hsource, nofun⟩
    · rw [fetch_of_retrieve_error load herror, isFetched_error_iff, hsource]
      exact iff_of_false nofun nofun
  · intro content hcontent
    rw [fetch_of_retrieve_ok load hcontent]
    refine ⟨?_, fun bytes hbytes ↦ asJson_of_asJson hbytes⟩
    rintro (hjson | ⟨hconvertible, hmapping⟩)
    · exact asJson_of_isSome load hjson
    · rcases asJson_cases load content with ⟨-, ⟨-, hsame⟩ | ⟨hmapped, -⟩⟩ | ⟨hnot, -⟩
      · exact hsame
      · exact absurd hmapped hmapping
      · exact absurd hconvertible hnot

/-- A file with some text. -/
private def fileWith (t : Text) : Sources := ⟨[("doc.yaml", t.flatMap Encoding.utf8Bytes)], []⟩

private theorem isMapping_of_loaded? (h : (match loaded? load content with
    | some (.ok data) => data.isMapping
    | _ => false) = true) : IsMapping load content := by
  split at h
  · next data hloaded => exact ⟨data, hloaded, h⟩
  · cases h

/-- A mapping with a list that it holds twice, and with a date among the values. -/
private def sharedText : Text := "a: &x [1, 2020-01-01]\nb: *x\n"

/-- Data with one list in two places is converted, whatever loader gives it. -/
theorem fetched_iff_isConvertible_shared :
    let content := sharedText.flatMap Encoding.utf8Bytes
    (retrieve (fileWith sharedText) "doc.yaml").1 = .ok content ∧ IsMapping Yaml.load content ∧
      IsConvertible Yaml.load content ∧
      ∃ bytes, (fetch (fileWith sharedText) "doc.yaml").1 = .ok bytes ∧
        asJson bytes = .ok bytes ∧ ∃ fields, Json.decode? bytes = some (.object fields) := by
  intro content
  have hcontent : (retrieve (fileWith sharedText) "doc.yaml").1 = .ok content := by
    decide +kernel
  have hmapping : IsMapping Yaml.load content := isMapping_of_loaded? (by decide +kernel)
  obtain ⟨bytes, hbytes⟩ := Outcome.exists_of_isOk
    (show (fetch (fileWith sharedText) "doc.yaml").1.isOk = true by decide +kernel)
  obtain ⟨hfetched, hgiven⟩ := fetched_iff_isConvertible Yaml.load (fileWith sharedText) "doc.yaml"
  obtain ⟨hstays, hobject⟩ := (hgiven content hcontent).2 bytes hbytes
  exact ⟨hcontent, hmapping, (hfetched.mp (.inl ⟨bytes, hbytes⟩)).2 content hcontent, bytes, hbytes,
    hstays, hobject hmapping⟩

/-- A mapping with a date for a name. -/
private def datedText : Text := "2020-01-01: x\n"

/-- A date for a name is neither given as JSON nor a failure of the source. -/
theorem unfetched_dated :
    IsMapping Yaml.load (datedText.flatMap Encoding.utf8Bytes) ∧
      (fetch (fileWith datedText) "doc.yaml").1 = .error (.yaml .unusableName) ∧
      ¬IsFetched (fetch (fileWith datedText) "doc.yaml").1 := by
  have hfetch : (fetch (fileWith datedText) "doc.yaml").1 = .error (.yaml .unusableName) := by
    decide +kernel
  refine ⟨isMapping_of_loaded? (by decide +kernel), hfetch, ?_⟩
  rw [hfetch, isFetched_error_iff]
  exact nofun

end Fetch

end Document

end ApiTools
