import ApiTools.Proofs.Fields
import ApiTools.Proofs.Outcome
import ApiTools.Tool.Registry

/-!
# Requests for documents and catalogs

All that a request can do. A request for a document uses the one that is kept, fails and changes
nothing, or reads one and keeps it. A request for a catalog names no source, uses the tools that
were built, fails with nothing changed but the documents kept, or builds the tools of the document
that it gets.
-/

namespace ApiTools

namespace Document

/-- A document that the bytes fetched from a source hold. -/
def Gives (sources : Sources) (source : Text) (document : Document) : Prop :=
  ∃ bytes, (fetch sources source).1 = .ok bytes ∧ (parse bytes).outcome = .ok document

namespace Loader

variable {l : Loader} {now : Moment} {sources : Sources} {source : Text}

/-- What a request for the document of a source can do. -/
inductive Loads (l : Loader) (now : Moment) (sources : Sources) (source : Text) (a : Answer) : Prop
  | kept (k : Kept) (current : l.current? now source = some k)
      (outcome : a.outcome.outcome = .ok k) (loader : a.loader = l) (rest : a.sources = sources)
      (asked : a.fetched = false)
  | failed (e : SourceError) (outcome : a.outcome.outcome = .error e) (loader : a.loader = l)
  | read (document : Document) (gives : Gives sources source document)
      (outcome : a.outcome.outcome = .ok ⟨document, now, l.versions⟩)
      (loader : a.loader = { l with
        kept := l.kept.set source ⟨document, now, l.versions⟩, versions := l.versions + 1 })
      (asked : a.fetched = true)

private theorem gives_of_read {document : Document}
    (h : (read sources source).1.outcome = .ok document) : Gives sources source document := by
  unfold read at h
  dsimp only at h
  split at h
  · cases h
  · next bytes hbytes => exact ⟨bytes, hbytes, Logged.mapError_ok_iff.mp h⟩

/-- A load is one of the kinds that there are. -/
theorem loads (l : Loader) (now : Moment) (sources : Sources) (source : Text) :
    Loads l now sources source (l.load now sources source) := by
  unfold load
  split
  · next k hcurrent => exact .kept k hcurrent rfl rfl rfl rfl
  · dsimp only
    split
    · next e _ => exact .failed e rfl rfl
    · next document hdocument => exact .read document (gives_of_read hdocument) rfl rfl rfl

/-- A request keeps everything as it is but a document that it has read from its source. -/
theorem get?_load (l : Loader) (now : Moment) (sources : Sources) (source other : Text) :
    (l.load now sources source).loader.kept.get? other = l.kept.get? other ∨
      (source = other ∧ (l.load now sources source).fetched = true ∧
        ∃ document, Gives sources source document ∧
          (l.load now sources source).loader.kept.get? other =
            some ⟨document, now, l.versions⟩) := by
  cases loads l now sources source with
  | kept _ _ _ hloader => exact .inl (by rw [hloader])
  | failed _ _ hloader => exact .inl (by rw [hloader])
  | read document hgives _ hloader hasked =>
    by_cases hsource : source = other
    · refine .inr ⟨hsource, hasked, document, hgives, ?_⟩
      rw [hloader, Fields.get?_set, if_pos hsource]
    · refine .inl ?_
      rw [hloader, Fields.get?_set, if_neg hsource]

/-- A load keeps the time for which documents are kept. -/
theorem lifetime_load (l : Loader) (now : Moment) (sources : Sources) (source : Text) :
    (l.load now sources source).loader.lifetime = l.lifetime := by
  cases loads l now sources source with
  | kept _ _ _ hloader => rw [hloader]
  | failed _ _ hloader => rw [hloader]
  | read _ _ _ hloader => rw [hloader]

/-- A document that is kept is within its time. -/
theorem kept_of_current? {k : Kept} (h : l.current? now source = some k) :
    l.kept.get? source = some k ∧ now - k.since < l.lifetime := by
  obtain ⟨hkept, htime⟩ := Option.filter_eq_some_iff.mp h
  exact ⟨hkept, of_decide_eq_true htime⟩

end Loader

end Document

namespace Registry

open Document (Kept)

variable {r : Registry} {now : Moment} {sources : Sources} {named : Option Text} {source : Text}

/-- Tools are those of the document's catalog that are allowed. -/
def AreToolsOf (s : Settings) (tools : List Tool) (document : Document) : Prop :=
  ∃ built, (Catalog.build s.strictToolIds document).outcome = .ok built ∧ tools = offered s built

/-- What a request for the tools of a source can do. -/
inductive Loads (r : Registry) (now : Moment) (sources : Sources) (named : Option Text)
    (a : Answer) : Prop
  | missing (meant : r.sourceOf? named = none) (outcome : a.outcome.outcome = .error .noSource)
      (registry : a.registry = r) (asked : a.fetched = false)
  | reused (source : Text) (tools : List Tool) (meant : r.sourceOf? named = some source)
      (current : r.current? now source = some tools) (outcome : a.outcome.outcome = .ok tools)
      (registry : a.registry = r) (rest : a.sources = sources) (asked : a.fetched = false)
      (reused : a.reused = true)
  | failed (source : Text) (e : RegistryError) (meant : r.sourceOf? named = some source)
      (current : r.current? now source = none) (outcome : a.outcome.outcome = .error e)
      (registry : a.registry = { r with loader := (r.loader.load now sources source).loader })
      (asked : a.fetched = (r.loader.load now sources source).fetched)
  | built (source : Text) (k : Kept) (tools : List Tool) (meant : r.sourceOf? named = some source)
      (current : r.current? now source = none)
      (document : (r.loader.load now sources source).outcome.outcome = .ok k)
      (content : AreToolsOf r.settings tools k.document) (outcome : a.outcome.outcome = .ok tools)
      (registry : a.registry = { r with
        loader := (r.loader.load now sources source).loader
        document := some k.document
        tools
        source := some source
        since := now })
      (asked : a.fetched = (r.loader.load now sources source).fetched)
      (reused : a.reused = false)

/-- The tools that are offered are those of the document's catalog that are allowed. -/
theorem build_ok_iff {s : Settings} {document : Document} {tools : List Tool} :
    (build s document).outcome = .ok tools ↔ AreToolsOf s tools document := by
  unfold build AreToolsOf
  simp only [Logged.bind_ok_iff, Logged.mapError_ok_iff, Except.ok.injEq]
  exact exists_congr fun built ↦ and_congr_right fun _ ↦ eq_comm

/-- A load is one of the kinds that there are. -/
theorem loads (r : Registry) (now : Moment) (sources : Sources) (named : Option Text) :
    Loads r now sources named (r.load now sources named) := by
  unfold load
  split
  · next hmeant => exact .missing hmeant rfl rfl rfl
  · next source hmeant =>
    split
    · next tools hcurrent => exact .reused source tools hmeant hcurrent rfl rfl rfl rfl rfl
    · next hcurrent =>
      dsimp only
      split
      · next e _ => exact .failed source e hmeant hcurrent rfl rfl rfl
      · next document tools hbuilt =>
        obtain ⟨k, hk, hrest⟩ := Logged.bind_ok_iff.mp hbuilt
        obtain ⟨_, htools, hpair⟩ := Logged.bind_ok_iff.mp hrest
        cases hpair
        exact .built source k tools hmeant hcurrent (Logged.mapError_ok_iff.mp hk)
          (build_ok_iff.mp htools) rfl rfl rfl rfl

/-- A load keeps the settings. -/
theorem settings_load (r : Registry) (now : Moment) (sources : Sources) (named : Option Text) :
    (r.load now sources named).registry.settings = r.settings := by
  cases loads r now sources named with
  | missing _ _ hregistry => rw [hregistry]
  | reused _ _ _ _ _ hregistry => rw [hregistry]
  | failed _ _ _ _ _ hregistry => rw [hregistry]
  | built _ _ _ _ _ _ _ _ hregistry => rw [hregistry]

/-- A request that fails changes nothing but the documents that are kept. -/
theorem registry_of_error {e : RegistryError}
    (h : (r.load now sources named).outcome.outcome = .error e) :
    (r.load now sources named).registry =
      { r with loader := (r.load now sources named).registry.loader } := by
  cases loads r now sources named with
  | missing _ _ hregistry => rw [hregistry]
  | reused _ _ _ _ houtcome =>
    rw [houtcome] at h
    cases h
  | failed _ _ _ _ _ hregistry => rw [hregistry]
  | built _ _ _ _ _ _ _ houtcome =>
    rw [houtcome] at h
    cases h

/-- Tools that are used again are those of the source, and are within their time. -/
theorem of_current? {tools : List Tool} (h : r.current? now source = some tools) :
    r.tools = tools ∧ r.tools ≠ [] ∧ r.source = some source ∧
      now - r.since < r.settings.toolCacheSeconds := by
  unfold current? at h
  split at h
  · next hcurrent =>
    cases h
    exact ⟨rfl, hcurrent⟩
  · cases h

/-- Tools that were built and are within their time are given without asking. -/
theorem load_of_current? {tools : List Tool} (hmeant : r.sourceOf? named = some source)
    (hcurrent : r.current? now source = some tools) :
    r.load now sources named = ⟨pure tools, r, sources, false, true⟩ := by
  simp only [load, hmeant, hcurrent]

/-- Tools are built of the document that is given, and given. -/
theorem load_of_document {k : Kept} {tools : List Tool} (hmeant : r.sourceOf? named = some source)
    (hcurrent : r.current? now source = none)
    (hk : (r.loader.load now sources source).outcome.outcome = .ok k)
    (hbuilt : (build r.settings k.document).outcome = .ok tools) :
    (r.load now sources named).outcome.outcome = .ok tools ∧
      (r.load now sources named).registry.document = some k.document := by
  have hpair : ((do
      let kept ← (r.loader.load now sources source).outcome.mapError RegistryError.source
      let tools ← build r.settings kept.document
      return (kept.document, tools)) : Logged RegistryError (Document × List Tool)).outcome =
        .ok (k.document, tools) :=
    Logged.bind_ok_iff.mpr ⟨k, Logged.mapError_ok_iff.mpr hk,
      Logged.bind_ok_iff.mpr ⟨tools, hbuilt, rfl⟩⟩
  simp only [load, hmeant, hcurrent, hpair, and_self]

/-- Tools that are given are those that the registry has afterwards, of some source. -/
theorem tools_of_ok {tools : List Tool}
    (h : (r.load now sources named).outcome.outcome = .ok tools) :
    (r.load now sources named).registry.tools = tools ∧
      (r.load now sources named).registry.source ≠ none := by
  cases loads r now sources named with
  | missing _ houtcome =>
    rw [houtcome] at h
    cases h
  | reused source given _ hcurrent houtcome hregistry =>
    rw [houtcome] at h
    cases h
    obtain ⟨htools, -, hsource, -⟩ := of_current? hcurrent
    rw [hregistry]
    exact ⟨htools, hsource ▸ Option.some_ne_none source⟩
  | failed _ _ _ _ houtcome =>
    rw [houtcome] at h
    cases h
  | built source k given _ _ _ _ houtcome hregistry =>
    rw [houtcome] at h
    cases h
    rw [hregistry]
    exact ⟨rfl, Option.some_ne_none source⟩

/-- A request for tools that were not built or are no longer used asks as that for the document. -/
theorem fetched_load (hmeant : r.sourceOf? named = some source)
    (hcurrent : r.current? now source = none) :
    (r.load now sources named).fetched = (r.loader.load now sources source).fetched := by
  cases loads r now sources named with
  | missing hnone =>
    rw [hmeant] at hnone
    cases hnone
  | reused other _ hother hsome =>
    rw [hmeant] at hother
    cases hother
    rw [hcurrent] at hsome
    cases hsome
  | failed other _ hother _ _ _ hasked =>
    rw [hmeant] at hother
    cases hother
    exact hasked
  | built other _ _ hother _ _ _ _ _ hasked =>
    rw [hmeant] at hother
    cases hother
    exact hasked

/-- A request for tools leaves the documents that are kept as they are, or has the loader asked for
the document of the source that is meant. -/
theorem loader_load (r : Registry) (now : Moment) (sources : Sources) (named : Option Text) :
    (r.load now sources named).registry.loader = r.loader ∨
      ∃ source, r.sourceOf? named = some source ∧
        (r.load now sources named).registry.loader = (r.loader.load now sources source).loader ∧
        (r.load now sources named).fetched = (r.loader.load now sources source).fetched := by
  cases loads r now sources named with
  | missing _ _ hregistry => exact .inl (by rw [hregistry])
  | reused _ _ _ _ _ hregistry => exact .inl (by rw [hregistry])
  | failed source _ hmeant _ _ hregistry hasked =>
    exact .inr ⟨source, hmeant, by rw [hregistry], hasked⟩
  | built source _ _ hmeant _ _ _ _ hregistry hasked =>
    exact .inr ⟨source, hmeant, by rw [hregistry], hasked⟩

/-- Before anything was built, tools that are given are those of a document that was read. -/
theorem load_empty_ok {s : Settings} {tools : List Tool}
    (h : ((empty s).load now sources named).outcome.outcome = .ok tools) :
    ∃ source document, Document.Gives sources source document ∧ AreToolsOf s tools document ∧
      ((empty s).load now sources named).registry.document = some document := by
  cases loads (empty s) now sources named with
  | missing _ houtcome =>
    rw [houtcome] at h
    cases h
  | reused _ _ _ hcurrent => exact absurd rfl (of_current? hcurrent).2.1
  | failed _ _ _ _ houtcome =>
    rw [houtcome] at h
    cases h
  | built source k _ _ _ hloaded hcontent houtcome hregistry =>
    rw [houtcome] at h
    cases h
    refine ⟨source, k.document, ?_, hcontent, by rw [hregistry]⟩
    cases Document.Loader.loads (empty s).loader now sources source with
    | kept _ hcurrent => cases hcurrent
    | failed _ houtcome =>
      rw [houtcome] at hloaded
      cases hloaded
    | read _ hgives houtcome =>
      rw [houtcome] at hloaded
      cases hloaded
      exact hgives

/-- The tools that are offered are some of those that there are. -/
theorem mem_of_mem_offered {s : Settings} {tools : List Tool} {tool : Tool}
    (h : tool ∈ offered s tools) : tool ∈ tools := by
  unfold offered at h
  split at h
  · exact h
  · exact (List.mem_filter.mp h).1

end Registry

end ApiTools
