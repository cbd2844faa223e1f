import ApiTools.Proofs.RegistryRuns

/-!
# Cached catalogs

A catalog that was built is given again until its time is over, whatever happens to its source and
to the documents that are kept, as long as no other source is asked for its tools. That holds of the
catalogs that are not empty and of no others (`given_again_iff`): an empty one is taken for none, so
its document is asked for again.
-/

namespace ApiTools

namespace Registry

namespace World

/-- Of the requests for tools among some events, none means another source. -/
def AsksOnly (w : World) (events : List Event) (source : Text) : Prop :=
  ∀ named other, .loadTools named ∈ events → w.registry.sourceOf? named = some other →
    other = source

variable {w : World} {e : Event} {events : List Event} {named : Option Text} {source : Text}
  {tools : List Tool}

/-- Tools that are within their time stay when their own source is asked for. -/
theorem sameCatalog_step (hcurrent : w.registry.current? w.now source = some tools)
    (hasks : w.AsksOnly [e] source) : w.registry.SameCatalog (w.step e).registry := by
  rcases catalog_of_step w e with hsame | ⟨named, other, _, _, rfl, -, hmeant, hnone, -⟩
  · exact hsame
  · obtain rfl := hasks named other List.mem_cons_self hmeant
    rw [hcurrent] at hnone
    cases hnone

/-- A catalog that is not empty stays until its time is over, if its own source is asked for. -/
theorem sameCatalog_run (hne : w.registry.tools ≠ []) (hsource : w.registry.source = some source)
    (hasks : w.AsksOnly events source)
    (htime : (w.run events).now - w.registry.since < w.registry.settings.toolCacheSeconds) :
    w.registry.SameCatalog (w.run events).registry := by
  -- Before the last event the time was not over either, so that event finds the catalog current.
  induction events using List.reverseRecOn with
  | nil => exact .refl _
  | append_singleton events e ih =>
    rw [run_snoc] at htime ⊢
    have hbefore : (w.run events).now - w.registry.since <
        w.registry.settings.toolCacheSeconds := by
      have hnow := now_le_step (w.run events) e
      grind
    have hsame :=
      ih (fun named other hmem ↦ hasks named other (List.mem_append_left _ hmem)) hbefore
    refine hsame.trans (sameCatalog_step (current?_run_of_same hsame hne hsource hbefore) ?_)
    intro named other hmem hmeant
    rw [sourceOf?_run] at hmeant
    exact hasks named other (List.mem_append_right _ hmem) hmeant

/-- Tools that were given and not reused are those that the registry has from now on. -/
theorem hasCatalog_of_new (hmeant : w.registry.sourceOf? named = some source)
    (hgiven : (w.toolsAnswer named).outcome.outcome = .ok tools)
    (hnew : (w.toolsAnswer named).reused = false) :
    ∃ document, (w.step (.loadTools named)).registry.HasCatalog source w.now document tools := by
  have hanswer := Registry.loads w.registry w.now w.sources named
  rw [← toolsAnswer] at hanswer
  cases hanswer with
  | missing hnone =>
    rw [hmeant] at hnone
    cases hnone
  | reused _ _ _ _ _ _ _ _ hreused =>
    rw [hnew] at hreused
    cases hreused
  | failed _ _ _ _ houtcome =>
    rw [hgiven] at houtcome
    cases houtcome
  | built other k built hother _ _ _ houtcome hregistry =>
    rw [hmeant] at hother
    cases hother
    rw [hgiven] at houtcome
    cases houtcome
    refine ⟨k.document, ?_⟩
    show (w.toolsAnswer named).registry.HasCatalog source w.now k.document tools
    rw [hregistry]
    exact ⟨rfl, rfl, rfl, rfl⟩

/-- A registry with no tools in its catalog has the loader asked for the document. -/
theorem asks_of_tools_eq_nil (hmeant : w.registry.sourceOf? named = some source)
    (hnil : w.registry.tools = []) :
    (w.toolsAnswer named).reused = false ∧
      (w.toolsAnswer named).registry.loader = (w.documentAnswer source).loader := by
  have hnone : w.registry.current? w.now source = none :=
    if_neg fun hcurrent ↦ hcurrent.1 hnil
  simp only [toolsAnswer, Registry.load, hmeant, hnone]
  split <;> exact ⟨rfl, rfl⟩

/-- Events that ask for no tools leave the catalog as it is. -/
theorem sameCatalog_of_no_request (w : World) (hnone : ∀ named, .loadTools named ∉ events) :
    w.registry.SameCatalog (w.run events).registry := by
  rcases catalog_origin w events with hsame | ⟨_, _, _, _, -, before, named, after, rfl, -⟩
  · exact hsame
  · exact absurd (List.mem_append_right before List.mem_cons_self) (hnone named)

/-- Tools of a catalog that is not empty are given until their time is over, if no other source is
asked for its tools. -/
theorem given_of_hasCatalog {t : Moment} {document : Document}
    (hcatalog : w.registry.HasCatalog source t document tools) (hne : tools ≠ [])
    (hasks : w.AsksOnly events source)
    (htime : (w.run events).now - t < w.registry.settings.toolCacheSeconds)
    (hmeant : w.registry.sourceOf? named = some source) :
    (w.run events).toolsAnswer named =
      ⟨pure tools, (w.run events).registry, (w.run events).sources, false, true⟩ := by
  have hnonempty : w.registry.tools ≠ [] := by rwa [hcatalog.tools]
  rw [← hcatalog.since] at htime
  have hsame := sameCatalog_run hnonempty hcatalog.source hasks htime
  have hcurrent := current?_run_of_same hsame hnonempty hcatalog.source htime
  rw [hcatalog.tools] at hcurrent
  exact load_of_current? ((sourceOf?_run w events named).trans hmeant) hcurrent

/-- An empty catalog has the loader asked whenever its tools are requested next. -/
theorem asked_of_hasCatalog {t : Moment} {document : Document}
    (hcatalog : w.registry.HasCatalog source t document [])
    (hnone : ∀ other, .loadTools other ∉ events)
    (hmeant : w.registry.sourceOf? named = some source) :
    ((w.run events).toolsAnswer named).reused = false ∧
      ((w.run events).toolsAnswer named).registry.loader =
        ((w.run events).documentAnswer source).loader := by
  have hsame := sameCatalog_of_no_request w hnone
  exact asks_of_tools_eq_nil ((sourceOf?_run w events named).trans hmeant)
    (hsame.tools.trans hcatalog.tools)

/-- Tools that were built and given are given again without asking, as long as their time is not
over and no other source is asked for its tools, exactly if there are some. If there are none, the
next request for them has the loader asked again, whenever it is made. -/
theorem given_again_iff (hlifetime : 0 < w.registry.settings.toolCacheSeconds)
    (hmeant : w.registry.sourceOf? named = some source)
    (hgiven : (w.toolsAnswer named).outcome.outcome = .ok tools)
    (hnew : (w.toolsAnswer named).reused = false) :
    ((∀ events again later, w.run (.loadTools named :: events) = later →
        w.AsksOnly events source → later.now < w.now + w.registry.settings.toolCacheSeconds →
        w.registry.sourceOf? again = some source →
        later.toolsAnswer again = ⟨pure tools, later.registry, later.sources, false, true⟩) ↔
      tools ≠ []) ∧
    (tools = [] → ∀ events again later, w.run (.loadTools named :: events) = later →
      (∀ other, .loadTools other ∉ events) → w.registry.sourceOf? again = some source →
      (later.toolsAnswer again).reused = false ∧
        (later.toolsAnswer again).registry.loader = (later.documentAnswer source).loader) := by
  obtain ⟨document, hcatalog⟩ := hasCatalog_of_new hmeant hgiven hnew
  have hmeans : ∀ again, (w.step (.loadTools named)).registry.sourceOf? again =
      w.registry.sourceOf? again := sourceOf?_run w [.loadTools named]
  refine ⟨⟨?_, ?_⟩, ?_⟩
  · -- An empty catalog is not given again even at the moment at which it was built.
    rintro h rfl
    have hnow : (w.run [.loadTools named]).now < w.now + w.registry.settings.toolCacheSeconds := by
      have hpositive : (0 : Rat) < w.registry.settings.toolCacheSeconds := by
        exact_mod_cast hlifetime
      show w.now < _
      grind
    have hreused := h [] named _ rfl nofun hnow hmeant
    have hasked := (asked_of_hasCatalog (w := w.step (.loadTools named)) hcatalog
      (fun _ ↦ List.not_mem_nil) ((hmeans named).trans hmeant)).1
    rw [run, List.foldl_nil] at hasked
    rw [run, List.foldl_cons, List.foldl_nil] at hreused
    rw [hreused] at hasked
    cases hasked
  · rintro hne events again _ rfl hasks htime hagain
    refine given_of_hasCatalog (w := w.step (.loadTools named)) hcatalog hne ?_ ?_
      ((hmeans again).trans hagain)
    · intro other source' hmem hother
      exact hasks other source' hmem ((hmeans other).symm.trans hother)
    · have hsettings : (w.step (.loadTools named)).registry.settings = w.registry.settings :=
        settings_run w [.loadTools named]
      rw [hsettings]
      show (w.run (.loadTools named :: events)).now - w.now < _
      grind
  · rintro rfl events again _ rfl hnone hagain
    exact asked_of_hasCatalog (w := w.step (.loadTools named)) hcatalog hnone
      ((hmeans again).trans hagain)

/-- Settings under which documents are not kept at all. -/
private def unkeptDocuments : Settings := { Settings.standard with documentCacheSeconds := 0 }

/-- Its file vanishes after tools were built, and time passes. -/
private def vanishing : List Event := [.change ⟨[], []⟩, .load "n.json", .advance 299 (by decide)]

/-- A catalog that is not empty is given again where its document has vanished and is not kept. -/
theorem given_again_iff_vanished :
    0 < unkeptDocuments.toolCacheSeconds ∧
    ∃ tools, ((start unkeptDocuments sampleSources 0).toolsAnswer
        (some "n.json")).outcome.outcome = .ok tools ∧
      ((start unkeptDocuments sampleSources 0).toolsAnswer (some "n.json")).reused = false ∧
      tools ≠ [] ∧
      (((start unkeptDocuments sampleSources 0).run
        (.loadTools (some "n.json") :: vanishing)).toolsAnswer
          (some "n.json")).outcome.outcome = .ok tools := by
  obtain ⟨hgiven, hnew, hsome, hmeant, hnow⟩ :
      ((start unkeptDocuments sampleSources 0).toolsAnswer
        (some "n.json")).outcome.outcome.isOk = true ∧
      ((start unkeptDocuments sampleSources 0).toolsAnswer (some "n.json")).reused = false ∧
      ((start unkeptDocuments sampleSources 0).toolsAnswer
        (some "n.json")).outcome.outcome ≠ .ok [] ∧
      (start unkeptDocuments sampleSources 0).registry.sourceOf? (some "n.json") =
        some "n.json" ∧
      ((start unkeptDocuments sampleSources 0).run
        (.loadTools (some "n.json") :: vanishing)).now < 0 + 300 := by decide +kernel
  have hlifetime : 0 < unkeptDocuments.toolCacheSeconds := by decide
  obtain ⟨tools, htools⟩ := Outcome.exists_of_isOk hgiven
  have hne : tools ≠ [] := by
    rintro rfl
    exact hsome htools
  have hasks : (start unkeptDocuments sampleSources 0).AsksOnly vanishing "n.json" := by
    intro named other hmem
    simp [vanishing] at hmem
  have hagain := (given_again_iff hlifetime hmeant htools hnew).1.mpr hne vanishing (some "n.json")
    _ rfl hasks hnow hmeant
  exact ⟨hlifetime, tools, htools, hnew, hne, by rw [hagain]; rfl⟩

/-- Settings under which no tool of the sample is offered and documents are not kept. -/
private def nothingOffered : Settings := { unkeptDocuments with toolAllowlist := some "x" }

/-- An empty catalog is lost with its file at once. -/
theorem empty_catalog_lost :
    0 < nothingOffered.toolCacheSeconds ∧
    ((start nothingOffered sampleSources 0).toolsAnswer (some "n.json")).outcome.outcome = .ok [] ∧
    ((start nothingOffered sampleSources 0).toolsAnswer (some "n.json")).reused = false ∧
    (start nothingOffered sampleSources 0).AsksOnly [.change ⟨[], []⟩] "n.json" ∧
    ((start nothingOffered sampleSources 0).run
      [.loadTools (some "n.json"), .change ⟨[], []⟩]).now < 0 + nothingOffered.toolCacheSeconds ∧
    (((start nothingOffered sampleSources 0).run
      [.loadTools (some "n.json"), .change ⟨[], []⟩]).toolsAnswer
        (some "n.json")).outcome.outcome.isOk = false := by
  have hasks : (start nothingOffered sampleSources 0).AsksOnly [.change ⟨[], []⟩] "n.json" := by
    intro named other hmem
    simp at hmem
  obtain ⟨hgiven, hnew, htime, hlost⟩ :
      ((start nothingOffered sampleSources 0).toolsAnswer
        (some "n.json")).outcome.outcome = .ok [] ∧
      ((start nothingOffered sampleSources 0).toolsAnswer (some "n.json")).reused = false ∧
      ((start nothingOffered sampleSources 0).run
        [.loadTools (some "n.json"), .change ⟨[], []⟩]).now < 0 + nothingOffered.toolCacheSeconds ∧
      (((start nothingOffered sampleSources 0).run
        [.loadTools (some "n.json"), .change ⟨[], []⟩]).toolsAnswer
          (some "n.json")).outcome.outcome.isOk = false := by decide +kernel
  exact ⟨by decide, hgiven, hnew, hasks, htime, hlost⟩

end World

end Registry

end ApiTools
