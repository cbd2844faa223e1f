import ApiTools.Proofs.RegistryRuns

/-!
# Failed requests

A request that fails, for whatever reason, leaves the catalog as it is, and of the documents that
are kept it replaces at most that of its own source, by one that it has read. So the tools that were
built before are given as long as they would have been, and nothing whose time is over is given
again (`unharmed_of_fails`).
-/

namespace ApiTools

open Document (Gives)

namespace Registry

namespace World

/-- An event is a request that fails. -/
def Fails (w : World) (e : Event) : Prop :=
  match e with
  | .load source => ∃ reason, (w.documentAnswer source).outcome.outcome = .error reason
  | .loadTools named => ∃ reason, (w.toolsAnswer named).outcome.outcome = .error reason
  | _ => False

/-- The source that an event is about, if it is about one. -/
def meant? (w : World) : Event → Option Text
  | .load source => some source
  | .loadTools named => w.registry.sourceOf? named
  | _ => none

/-- An event leaves everything that is given as it is. -/
structure Unharmed (w : World) (e : Event) : Prop where
  /-- The document of the catalog, its tools, their source and their time are as before. -/
  catalog : w.registry.SameCatalog (w.step e).registry
  /-- The documents of other sources are kept as before. -/
  others : ∀ source, w.meant? e ≠ some source →
    (w.step e).registry.loader.kept.get? source = w.registry.loader.kept.get? source
  /-- That of the source itself is kept as before, unless one was read that the source gave. -/
  own : ∀ source, w.meant? e = some source →
    (w.step e).registry.loader.kept.get? source = w.registry.loader.kept.get? source ∨
      (w.Asks e source ∧ ∃ document, Gives w.sources source document ∧
        (w.step e).registry.loader.kept.get? source =
          some ⟨document, w.now, w.registry.loader.versions⟩)
  /-- Until others are built, the tools that were built before are given for as long as they would
  have been, and nothing is asked for them. -/
  reuse : ∀ events named source, w.registry.source = some source →
    w.registry.sourceOf? named = some source → w.registry.tools ≠ [] →
    (∀ other t document tools, ¬(w.step e).BuiltDuring events other t document tools) →
    (w.run (e :: events)).now - w.registry.since < w.registry.settings.toolCacheSeconds →
    (w.run (e :: events)).toolsAnswer named =
      ⟨pure w.registry.tools, (w.run (e :: events)).registry, (w.run (e :: events)).sources, false,
        true⟩
  /-- A document that is given later for a source of which none was kept within its time was read
  since. -/
  documents : ∀ events source k, w.Expired source →
    ((w.run (e :: events)).documentAnswer source).outcome.outcome = .ok k →
    w.now ≤ k.since ∧ w.ReadDuring (e :: events ++ [.load source]) source k.since k.document
  /-- Tools that are given later for a source whose tools were not within their time were built
  since, and of a document that was read since if none was kept within its time either. -/
  tools : ∀ events named source tools, w.registry.sourceOf? named = some source →
    w.registry.current? w.now source = none →
    ((w.run (e :: events)).toolsAnswer named).outcome.outcome = .ok tools →
    ∃ t document, w.BuiltDuring (e :: events ++ [.loadTools named]) source t document tools ∧
      (w.Expired source → ∃ u ≤ t, w.now ≤ u ∧
        w.ReadDuring (e :: events ++ [.loadTools named]) source u document)

variable {w : World} {e : Event} {events : List Event} {named : Option Text} {source : Text}
  {tools : List Tool}

/-- A request that fails leaves the catalog as it is. -/
theorem sameCatalog_of_fails (h : w.Fails e) : w.registry.SameCatalog (w.step e).registry := by
  cases e with
  | change sources => exact h.elim
  | advance seconds nonneg => exact h.elim
  | load source => exact ⟨rfl, rfl, rfl, rfl⟩
  | loadTools named =>
    obtain ⟨reason, hreason⟩ := h
    show w.registry.SameCatalog (w.toolsAnswer named).registry
    rw [toolsAnswer, registry_of_error hreason]
    exact ⟨rfl, rfl, rfl, rfl⟩

/-- What an event asks is the source that it is about. -/
theorem meant?_of_asks (h : w.Asks e source) : w.meant? e = some source := by
  cases e with
  | change sources => exact h.elim
  | advance seconds nonneg => exact h.elim
  | load other => exact congrArg some h.1
  | loadTools named => exact h.1

/-- Tools that are within their time at the end of a run that has built none were so before. -/
theorem current?_of_same (hsame : w.registry.SameCatalog (w.run events).registry)
    (hcurrent : (w.run events).registry.current? (w.run events).now source = some tools) :
    w.registry.current? w.now source = some tools := by
  obtain ⟨htools, hne, hsource, htime⟩ := of_current? hcurrent
  rw [hsame.tools] at htools hne
  rw [hsame.source] at hsource
  rw [hsame.since, settings_run] at htime
  have hbefore : w.now - w.registry.since < w.registry.settings.toolCacheSeconds := by
    have hnow := now_le_run w events
    grind
  rw [current?, if_pos ⟨hne, hsource, hbefore⟩, htools]

/-- Tools that a run gives at last were within their time when it began, or were built during it. -/
theorem built_of_toolsAnswer (hmeant : w.registry.sourceOf? named = some source)
    (hcurrent : w.registry.current? w.now source = none)
    (h : ((w.run events).toolsAnswer named).outcome.outcome = .ok tools) :
    ∃ t document, w.BuiltDuring (events ++ [.loadTools named]) source t document tools := by
  have hsame : ∀ {other}, (w.run events).registry.sourceOf? named = some other →
      other = source := by
    intro other hother
    rw [sourceOf?_run, hmeant] at hother
    exact (Option.some.inj hother).symm
  cases Registry.loads (w.run events).registry (w.run events).now (w.run events).sources named with
  | missing _ houtcome =>
    rw [toolsAnswer, houtcome] at h
    cases h
  | failed _ _ _ _ houtcome =>
    rw [toolsAnswer, houtcome] at h
    cases h
  | reused other _ hother hreused houtcome =>
    rw [toolsAnswer, houtcome] at h
    cases h
    cases hsame hother
    -- The catalog that is used again is not that from before the run, which was not current then.
    rcases catalog_origin w events with hold | ⟨_, t, document, built, hcatalog, hbuilt⟩
    · rw [current?_of_same hold hreused] at hcurrent
      cases hcurrent
    · obtain ⟨htools, -, hsource, -⟩ := of_current? hreused
      rw [hcatalog.tools] at htools
      rw [hcatalog.source] at hsource
      cases hsource
      subst htools
      exact ⟨t, document, hbuilt.append _⟩
  | built other k _ hother hnone hk hcontent houtcome =>
    rw [toolsAnswer, houtcome] at h
    cases h
    cases hsame hother
    exact ⟨_, k.document, events, named, [], rfl, rfl, hother, hnone, ⟨k, hk, rfl⟩, hcontent⟩

/-- A request that fails harms nothing. -/
theorem unharmed_of_fails (h : w.Fails e) : w.Unharmed e := by
  have hcatalog := sameCatalog_of_fails h
  refine ⟨hcatalog, ?_, ?_, ?_, ?_, ?_⟩
  · intro source hother
    rcases get?_step w e source with hsame | ⟨hask, -⟩
    · exact hsame
    · exact absurd (meant?_of_asks hask) hother
  · intro source _
    exact get?_step w e source
  · intro events named source hsource hmeant hne hnone htime
    rcases catalog_origin (w.step e) events with hsame | ⟨_, _, _, _, -, hbuilt⟩
    · have hcurrent : (w.run (e :: events)).registry.current? (w.run (e :: events)).now source =
          some w.registry.tools :=
        current?_run_of_same (hcatalog.trans hsame) hne hsource htime
      exact load_of_current? ((sourceOf?_run w (e :: events) named).trans hmeant) hcurrent
    · exact absurd hbuilt (hnone _ _ _ _)
  · intro events source k hexpired hk
    obtain ⟨hread, -⟩ := read_of_document hexpired (.load source) hk fun hasked ↦ ⟨rfl, hasked⟩
    exact ⟨hread.now_le, hread⟩
  · intro events named source tools hmeant hcurrent htools
    obtain ⟨t, document, hbuilt⟩ := built_of_toolsAnswer hmeant hcurrent htools
    refine ⟨t, document, hbuilt, fun hexpired ↦ ?_⟩
    obtain ⟨-, -, u, hu, hread, -⟩ := hbuilt.exists_read hexpired
    exact ⟨u, hu, hread.now_le, hread⟩

/-- Settings under which tools are used for longer than documents are kept. -/
private def briefDocuments : Settings := { Settings.standard with documentCacheSeconds := 10 }

/-- Tools were built before the file of their document vanished, and its time is over. -/
private def vanished : World :=
  (start briefDocuments sampleSources 0).run
    [.loadTools (some "n.json"), .change ⟨[], []⟩, .advance 15 (by decide)]

/-- A catalog stays as it is when a load fails because its file has vanished. -/
theorem unharmed_of_fails_vanished :
    vanished.Fails (.load "n.json") ∧ vanished.Unharmed (.load "n.json") ∧
      vanished.registry.tools ≠ [] ∧
      ((vanished.run [.load "n.json"]).toolsAnswer (some "n.json")).outcome.outcome =
        .ok vanished.registry.tools := by
  obtain ⟨hrefused, hne, hsource, hmeant, htime⟩ :
      (vanished.documentAnswer "n.json").outcome.outcome.isOk = false ∧
      vanished.registry.tools ≠ [] ∧ vanished.registry.source = some "n.json" ∧
      vanished.registry.sourceOf? (some "n.json") = some "n.json" ∧
      (vanished.run [.load "n.json"]).now - vanished.registry.since <
        vanished.registry.settings.toolCacheSeconds := by decide +kernel
  have hfails : vanished.Fails (.load "n.json") := Outcome.exists_of_not_isOk hrefused
  have hunharmed := unharmed_of_fails hfails
  have hnone : ∀ other t document tools,
      ¬(vanished.step (.load "n.json")).BuiltDuring [] other t document tools := by
    rintro other t document tools ⟨before, _, _, hnil, -⟩
    cases before <;> cases hnil
  have hanswer := hunharmed.reuse [] (some "n.json") "n.json" hsource hmeant hne hnone htime
  exact ⟨hfails, hunharmed, hne, by rw [hanswer]; rfl⟩

end World

end Registry

end ApiTools
