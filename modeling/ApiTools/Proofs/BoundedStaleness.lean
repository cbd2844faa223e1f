import ApiTools.Proofs.RegistryRuns

/-!
# Bounded staleness

What is served during a run comes from the source that was asked for, read at some moment of the
run. A document is not older than its time, and tools are not older than their own time and that of
a document together (`bounded_staleness`).
-/

namespace ApiTools

open Document (Kept)

namespace Registry

/-- What is recent for a moment that is recent is recent for the sum of the times. -/
theorem IsRecent.trans {now u t : Moment} {seconds others : Int} (h : IsRecent now seconds u)
    (h' : IsRecent u others t) (hseconds : 0 ≤ seconds) (hothers : 0 ≤ others) :
    IsRecent now (seconds + others) t := by
  have hs : (0 : Rat) ≤ seconds := Rat.intCast_nonneg.mpr hseconds
  have ho : (0 : Rat) ≤ others := Rat.intCast_nonneg.mpr hothers
  unfold IsRecent at *
  rw [Rat.intCast_add]
  grind

namespace World

variable {settings : Settings} {sources : Sources} {now t : Moment} {events : List Event}
  {source : Text} {document : Document} {tools : List Tool} {k : Kept}

private theorem expired_start (settings : Settings) (sources : Sources) (now : Moment)
    (source : Text) :
    (start settings sources now).Expired source :=
  nofun

/-- Tools that are used again at the end of a run are those of the registry's document. -/
theorem exists_read_of_reused (htools : 0 ≤ settings.toolCacheSeconds)
    (hdocuments : 0 ≤ settings.documentCacheSeconds)
    (h : ((start settings sources now).run events).registry.current?
      ((start settings sources now).run events).now source = some tools) :
    ∃ document, AreToolsOf settings tools document ∧
      ((start settings sources now).run events).registry.document = some document ∧
      ∃ t ≤ ((start settings sources now).run events).now,
        (start settings sources now).ReadDuring events source t document ∧
        IsRecent ((start settings sources now).run events).now
          (settings.toolCacheSeconds + settings.documentCacheSeconds) t := by
  obtain ⟨hsame, hne, hcached, htime⟩ := of_current? h
  rw [settings_run] at htime
  rcases catalog_origin (start settings sources now) events with
    hempty | ⟨other, u, document, built, hcatalog, hbuilt⟩
  · exact absurd hempty.tools hne
  · -- The catalog is that of the source: it was built within its own time, of a document that was
    -- within its time then.
    have hother : other = source := Option.some.inj (hcatalog.source.symm.trans hcached)
    have hbuilt_eq : built = tools := hcatalog.tools.symm.trans hsame
    subst hother hbuilt_eq
    rw [hcatalog.since] at htime
    obtain ⟨hcontent, hnow, t, ht, hread, hrecent⟩ := hbuilt.exists_read (expired_start _ _ _ _)
    exact ⟨document, hcontent, hcatalog.document, t, Rat.le_trans ht hnow, hread,
      IsRecent.trans (.inr htime) hrecent htools hdocuments⟩

/-- Whatever a run returns in the end comes from the source that was asked for and is recent: a
document was read during the run within its time, and tools are those of a document that was read
within the two times together, which is then the document of the registry. -/
theorem bounded_staleness (htools : 0 ≤ settings.toolCacheSeconds)
    (hdocuments : 0 ≤ settings.documentCacheSeconds) (sources : Sources) (now : Moment)
    (events : List Event) :
    (∀ source k,
      (((start settings sources now).run events).documentAnswer source).outcome.outcome = .ok k →
      ∃ t ≤ ((start settings sources now).run events).now,
        (start settings sources now).ReadDuring (events ++ [.load source]) source t k.document ∧
        IsRecent ((start settings sources now).run events).now settings.documentCacheSeconds t) ∧
    (∀ named tools,
      (((start settings sources now).run events).toolsAnswer named).outcome.outcome = .ok tools →
      ∃ source document, (Registry.empty settings).sourceOf? named = some source ∧
        AreToolsOf settings tools document ∧
        (((start settings sources now).run events).toolsAnswer named).registry.document =
          some document ∧
        ∃ t ≤ ((start settings sources now).run events).now,
          (start settings sources now).ReadDuring (events ++ [.loadTools named]) source t document ∧
          IsRecent ((start settings sources now).run events).now
            (settings.toolCacheSeconds + settings.documentCacheSeconds) t) := by
  constructor
  · intro source k h
    have hexpired := expired_start settings sources now source
    obtain ⟨hread, hrecent⟩ := read_of_document hexpired (.load source) h fun hasked ↦ ⟨rfl, hasked⟩
    exact ⟨k.since, hread.le_of_snoc rfl, hread, hrecent⟩
  · intro named tools h
    have hsource := sourceOf?_run (start settings sources now) events named
    cases Registry.loads ((start settings sources now).run events).registry
      ((start settings sources now).run events).now
      ((start settings sources now).run events).sources named with
    | missing _ houtcome =>
      rw [toolsAnswer, houtcome] at h
      cases h
    | failed _ _ _ _ houtcome =>
      rw [toolsAnswer, houtcome] at h
      cases h
    | reused source _ hmeant hcurrent houtcome hregistry =>
      rw [toolsAnswer, houtcome] at h
      cases h
      obtain ⟨document, hcontent, hdocument, t, ht, hread, hrecent⟩ :=
        exists_read_of_reused htools hdocuments hcurrent
      refine ⟨source, document, hsource.symm.trans hmeant, hcontent, ?_, t, ht, hread.append _,
        hrecent⟩
      rw [toolsAnswer, hregistry]
      exact hdocument
    | built source k _ hmeant _ hk hcontent houtcome hregistry hasked =>
      rw [toolsAnswer, houtcome] at h
      cases h
      rw [settings_run] at hcontent
      have hexpired := expired_start settings sources now source
      obtain ⟨hread, hrecent⟩ := read_of_document hexpired (.loadTools named) hk fun hfetched ↦
        ⟨hmeant, hasked.trans hfetched⟩
      refine ⟨source, k.document, hsource.symm.trans hmeant, hcontent, ?_, k.since,
        hread.le_of_snoc rfl, hread, IsRecent.trans (.inl rfl) hrecent htools hdocuments⟩
      rw [toolsAnswer, hregistry]

/-- A document and its tools are loaded before their file vanishes. -/
private def vanishingFile : List Event :=
  [.load "n.json", .advance 10 (by decide), .loadTools (some "n.json"), .change ⟨[], []⟩,
    .advance 20 (by decide)]

/-- A document whose file has vanished is given within its time, and so are the tools that were made
of it. -/
theorem bounded_staleness_vanishing :
    0 ≤ Settings.standard.toolCacheSeconds ∧ 0 ≤ Settings.standard.documentCacheSeconds ∧
    (∃ k, (((start .standard sampleSources 0).run vanishingFile).documentAnswer
        "n.json").outcome.outcome = .ok k ∧
      ∃ t ≤ 30, (start .standard sampleSources 0).ReadDuring (vanishingFile ++ [.load "n.json"])
        "n.json" t k.document) ∧
    ∃ tools, (((start .standard sampleSources 0).run vanishingFile).toolsAnswer
        (some "n.json")).outcome.outcome = .ok tools ∧
      ∃ source document, (Registry.empty .standard).sourceOf? (some "n.json") = some source ∧
        AreToolsOf .standard tools document ∧ ∃ t ≤ 30, IsRecent 30 (300 + 3600) t ∧
          (start .standard sampleSources 0).ReadDuring
            (vanishingFile ++ [.loadTools (some "n.json")]) source t document := by
  have htools : 0 ≤ Settings.standard.toolCacheSeconds := by decide
  have hdocuments : 0 ≤ Settings.standard.documentCacheSeconds := by decide
  obtain ⟨hgiven, hoffered, hnow⟩ :
      (((start .standard sampleSources 0).run vanishingFile).documentAnswer
        "n.json").outcome.outcome.isOk = true ∧
      (((start .standard sampleSources 0).run vanishingFile).toolsAnswer
        (some "n.json")).outcome.outcome.isOk = true ∧
      ((start .standard sampleSources 0).run vanishingFile).now = 30 := by decide +kernel
  obtain ⟨k, hk⟩ := Outcome.exists_of_isOk hgiven
  obtain ⟨tools, htools'⟩ := Outcome.exists_of_isOk hoffered
  obtain ⟨hdocument, hcatalog⟩ := bounded_staleness htools hdocuments sampleSources 0 vanishingFile
  rw [hnow] at hdocument hcatalog
  obtain ⟨t, ht, hread, -⟩ := hdocument "n.json" k hk
  obtain ⟨source, document, hsource, hcontent, -, u, hu, hread', hrecent⟩ :=
    hcatalog (some "n.json") tools htools'
  exact ⟨htools, hdocuments, ⟨k, hk, t, ht, hread⟩, tools, htools', source, document, hsource,
    hcontent, u, hu, hrecent, hread'⟩

end World

end Registry

end ApiTools
