import Mathlib.Data.List.Induction
import ApiTools.Proofs.Loads

/-!
# Runs of a registry

A registry and its loader live in a world where the contents of sources change and time passes.
A document that is kept after a run was kept before it or was read during it from its own source
(`kept_origin`), and the same holds of the tools that were built last (`catalog_origin`).
-/

namespace ApiTools

open Document (Kept Loader Gives)

namespace Registry

/-- A registry, what its sources hold, and the time. -/
structure World where
  registry : Registry
  sources : Sources
  now : Moment

/-- What happens in a world. -/
inductive Event where
  | change (sources : Sources)
  | advance (seconds : Rat) (nonneg : 0 ≤ seconds)
  | load (source : Text)
  | loadTools (named : Option Text)

/-- A moment is now, or fewer than some seconds ago. -/
def IsRecent (now : Moment) (seconds : Int) (t : Moment) : Prop := t = now ∨ now - t < seconds

/-- Two registries have the same catalog, whatever documents are kept. -/
structure SameCatalog (r other : Registry) : Prop where
  document : other.document = r.document
  tools : other.tools = r.tools
  source : other.source = r.source
  since : other.since = r.since

/-- A registry has the catalog of a source, built at a moment of a document. -/
structure HasCatalog (r : Registry) (source : Text) (t : Moment) (document : Document)
    (tools : List Tool) : Prop where
  source : r.source = some source
  since : r.since = t
  document : r.document = some document
  tools : r.tools = tools

/-- A registry has its own catalog. -/
theorem SameCatalog.refl (r : Registry) : r.SameCatalog r := ⟨rfl, rfl, rfl, rfl⟩

/-- Registries with the catalog of one between them have the same. -/
theorem SameCatalog.trans {r s t : Registry} (h : r.SameCatalog s) (h' : s.SameCatalog t) :
    r.SameCatalog t :=
  ⟨h'.document.trans h.document, h'.tools.trans h.tools, h'.source.trans h.source,
    h'.since.trans h.since⟩

private theorem HasCatalog.of_same {r other : Registry} {source : Text} {t : Moment}
    {document : Document}
    {tools : List Tool} (h : r.HasCatalog source t document tools) (hsame : r.SameCatalog other) :
    other.HasCatalog source t document tools :=
  ⟨hsame.source.trans h.source, hsame.since.trans h.since, hsame.document.trans h.document,
    hsame.tools.trans h.tools⟩

namespace World

/-- A world with nothing read yet. -/
def start (settings : Settings) (sources : Sources) (now : Moment) : World :=
  ⟨.empty settings, sources, now⟩

/-- The answer to a request for the document of a source. -/
def documentAnswer (w : World) (source : Text) : Loader.Answer :=
  w.registry.loader.load w.now w.sources source

/-- The answer to a request for tools. -/
def toolsAnswer (w : World) (named : Option Text) : Answer :=
  w.registry.load w.now w.sources named

/-- The world after an event. -/
def step (w : World) : Event → World
  | .change sources => { w with sources }
  | .advance seconds _ => { w with now := w.now + seconds }
  | .load source =>
    { w with
      registry := { w.registry with loader := (w.documentAnswer source).loader }
      sources := (w.documentAnswer source).sources }
  | .loadTools named =>
    { w with registry := (w.toolsAnswer named).registry, sources := (w.toolsAnswer named).sources }

/-- The world after some events. -/
def run (w : World) (events : List Event) : World := events.foldl step w

/-- An event has a source asked. -/
def Asks (w : World) (e : Event) (source : Text) : Prop :=
  match e with
  | .load other => other = source ∧ (w.documentAnswer other).fetched = true
  | .loadTools named =>
    w.registry.sourceOf? named = some source ∧ (w.toolsAnswer named).fetched = true
  | _ => False

/-- No document is kept for a source, or one whose time is over. -/
def Expired (w : World) (source : Text) : Prop :=
  ∀ k, w.registry.loader.kept.get? source = some k →
    (w.registry.loader.lifetime : Rat) ≤ w.now - k.since

/-- During a run the document was read at a moment, from bytes that the source itself gave. -/
def ReadDuring (w : World) (events : List Event) (source : Text) (t : Moment)
    (document : Document) : Prop :=
  ∃ before e after, events = before ++ e :: after ∧ (w.run before).now = t ∧
    (w.run before).Asks e source ∧ Gives (w.run before).sources source document

/-- The tools of a source can be built now, of a document that the loader has for it. -/
def Builds (w : World) (named : Option Text) (source : Text) (document : Document)
    (tools : List Tool) : Prop :=
  w.registry.sourceOf? named = some source ∧ w.registry.current? w.now source = none ∧
    (∃ k, (w.documentAnswer source).outcome.outcome = .ok k ∧ k.document = document) ∧
      AreToolsOf w.registry.settings tools document

/-- During a run the tools of a source were built at a moment. -/
def BuiltDuring (w : World) (events : List Event) (source : Text) (t : Moment)
    (document : Document) (tools : List Tool) : Prop :=
  ∃ before named after, events = before ++ .loadTools named :: after ∧ (w.run before).now = t ∧
    (w.run before).Builds named source document tools

section Runs

variable {w : World} {events : List Event} {e : Event} {source : Text} {t : Moment}
  {document : Document} {tools : List Tool}

/-- A run is one step longer with one event more. -/
theorem run_snoc (w : World) (events : List Event) (e : Event) :
    w.run (events ++ [e]) = (w.run events).step e := by
  rw [run, List.foldl_append]
  rfl

private theorem run_append (w : World) (events more : List Event) :
    w.run (events ++ more) = (w.run events).run more :=
  List.foldl_append

/-- The clock is not put back. -/
theorem now_le_step (w : World) (e : Event) : w.now ≤ (w.step e).now := by
  cases e with
  | advance seconds nonneg =>
    show w.now ≤ w.now + seconds
    grind
  | _ => exact Rat.le_refl

/-- Time does not run backwards. -/
theorem now_le_run (w : World) (events : List Event) : w.now ≤ (w.run events).now := by
  induction events generalizing w with
  | nil => exact Rat.le_refl
  | cons e rest ih => exact Rat.le_trans (now_le_step w e) (ih (w.step e))

/-- What was read during a run was read during a longer one. -/
theorem ReadDuring.append (h : w.ReadDuring events source t document) (more : List Event) :
    w.ReadDuring (events ++ more) source t document := by
  obtain ⟨before, e, after, rfl, hread⟩ := h
  exact ⟨before, e, after ++ more, by simp, hread⟩

/-- What was built during a run was built during a longer one. -/
theorem BuiltDuring.append (h : w.BuiltDuring events source t document tools)
    (more : List Event) : w.BuiltDuring (events ++ more) source t document tools := by
  obtain ⟨before, named, after, rfl, hbuilt⟩ := h
  exact ⟨before, named, after ++ more, by simp, hbuilt⟩

/-- What is read in the end is read during the run. -/
theorem readDuring_snoc (hask : (w.run events).Asks e source)
    (hgives : Gives (w.run events).sources source document) :
    w.ReadDuring (events ++ [e]) source (w.run events).now document :=
  ⟨events, e, [], rfl, rfl, hask, hgives⟩

/-- What was read during a run was read before its end. -/
theorem ReadDuring.le_now (h : w.ReadDuring events source t document) : t ≤ (w.run events).now := by
  obtain ⟨before, e, after, rfl, rfl, -⟩ := h
  rw [run_append]
  exact now_le_run _ _

/-- The last document of a run was read before the run ends, if its request takes no time. -/
theorem ReadDuring.le_of_snoc (h : w.ReadDuring (events ++ [e]) source t document)
    (he : ((w.run events).step e).now = (w.run events).now) : t ≤ (w.run events).now := by
  rw [← he, ← run_snoc]
  exact h.le_now

/-- What was read during a run was read after its start. -/
theorem ReadDuring.now_le (h : w.ReadDuring events source t document) : w.now ≤ t := by
  obtain ⟨before, e, after, rfl, rfl, -⟩ := h
  exact now_le_run _ _

end Runs

section Origins

variable {w : World} {events : List Event} {e : Event} {source : Text} {k : Kept}

/-- An event keeps everything as it is but a document that it has read from its source. -/
theorem get?_step (w : World) (e : Event) (source : Text) :
    (w.step e).registry.loader.kept.get? source = w.registry.loader.kept.get? source ∨
      (w.Asks e source ∧ ∃ document, Gives w.sources source document ∧
        (w.step e).registry.loader.kept.get? source =
          some ⟨document, w.now, w.registry.loader.versions⟩) := by
  cases e with
  | change sources => exact .inl rfl
  | advance seconds nonneg => exact .inl rfl
  | load other =>
    rcases Loader.get?_load w.registry.loader w.now w.sources other source with
      hsame | ⟨rfl, hasked, hread⟩
    · exact .inl hsame
    · exact .inr ⟨⟨rfl, hasked⟩, hread⟩
  | loadTools named =>
    show (w.toolsAnswer named).registry.loader.kept.get? source = _ ∨
      (_ ∧ ∃ document, _ ∧ (w.toolsAnswer named).registry.loader.kept.get? source = _)
    rcases Registry.loader_load w.registry w.now w.sources named with
      hsame | ⟨other, hmeant, hloader, hfetched⟩
    · exact .inl (by rw [toolsAnswer, hsame])
    · rw [toolsAnswer, hloader]
      rcases Loader.get?_load w.registry.loader w.now w.sources other source with
        hsame | ⟨rfl, hasked, hread⟩
      · exact .inl hsame
      · exact .inr ⟨⟨hmeant, hfetched.trans hasked⟩, hread⟩

/-- What is kept after a run was kept before it, or was read from its source during it. -/
theorem kept_origin (w : World) (events : List Event)
    (h : (w.run events).registry.loader.kept.get? source = some k) :
    w.registry.loader.kept.get? source = some k ∨
      w.ReadDuring events source k.since k.document := by
  -- The last event decides: what it leaves is older, and what it reads is read at its moment.
  induction events using List.reverseRecOn with
  | nil => exact .inl h
  | append_singleton events e ih =>
    rw [run_snoc] at h
    rcases get?_step (w.run events) e source with hsame | ⟨hask, document, hgives, hread⟩
    · rw [hsame] at h
      exact (ih h).imp_right fun hread ↦ hread.append [e]
    · rw [hread] at h
      cases h
      exact .inr (readDuring_snoc hask hgives)

/-- An event leaves the catalog as it is or builds one. -/
theorem catalog_of_step (w : World) (e : Event) :
    w.registry.SameCatalog (w.step e).registry ∨
      ∃ named source document tools, e = .loadTools named ∧
        (w.step e).registry.HasCatalog source w.now document tools ∧
        w.Builds named source document tools := by
  cases e with
  | change sources => exact .inl (.refl _)
  | advance seconds nonneg => exact .inl (.refl _)
  | load other => exact .inl ⟨rfl, rfl, rfl, rfl⟩
  | loadTools named =>
    cases Registry.loads w.registry w.now w.sources named with
    | missing _ _ hregistry =>
      rw [step, toolsAnswer, hregistry]
      exact .inl (.refl _)
    | reused _ _ _ _ _ hregistry =>
      rw [step, toolsAnswer, hregistry]
      exact .inl (.refl _)
    | failed other _ _ _ _ hregistry =>
      rw [step, toolsAnswer, hregistry]
      exact .inl ⟨rfl, rfl, rfl, rfl⟩
    | built other k tools hmeant hcurrent hdocument hcontent _ hregistry =>
      rw [step, toolsAnswer, hregistry]
      exact .inr ⟨named, other, k.document, tools, rfl, ⟨rfl, rfl, rfl, rfl⟩, hmeant, hcurrent,
        ⟨k, hdocument, rfl⟩, hcontent⟩

/-- A run leaves the catalog as it is, or the catalog that is left was built during it. -/
theorem catalog_origin (w : World) (events : List Event) :
    w.registry.SameCatalog (w.run events).registry ∨
      ∃ source t document tools, (w.run events).registry.HasCatalog source t document tools ∧
        w.BuiltDuring events source t document tools := by
  induction events using List.reverseRecOn with
  | nil => exact .inl (.refl _)
  | append_singleton events e ih =>
    rw [run_snoc]
    rcases catalog_of_step (w.run events) e with
      hsame | ⟨named, source, document, tools, rfl, hcatalog, hbuilds⟩
    · refine ih.imp (fun hold ↦ hold.trans hsame) ?_
      rintro ⟨source, t, document, tools, hcatalog, hbuilt⟩
      exact ⟨source, t, document, tools, hcatalog.of_same hsame, hbuilt.append [e]⟩
    · exact .inr ⟨source, _, document, tools, hcatalog, events, named, [], rfl, rfl, hbuilds⟩

/-- Settings stay as they are. -/
theorem settings_run (w : World) (events : List Event) :
    (w.run events).registry.settings = w.registry.settings := by
  induction events using List.reverseRecOn with
  | nil => rfl
  | append_singleton events e ih =>
    rw [run_snoc, ← ih]
    cases e with
    | loadTools named => exact settings_load _ _ _ _
    | _ => rfl

/-- A run does not change where documents come from. -/
theorem sourceOf?_run (w : World) (events : List Event) (named : Option Text) :
    (w.run events).registry.sourceOf? named = w.registry.sourceOf? named := by
  unfold sourceOf?
  rw [settings_run]

/-- Tools that a run leaves as they are are still within their time at its end, if that is not over
then. -/
theorem current?_run_of_same (hsame : w.registry.SameCatalog (w.run events).registry)
    (hne : w.registry.tools ≠ []) (hsource : w.registry.source = some source)
    (htime : (w.run events).now - w.registry.since < w.registry.settings.toolCacheSeconds) :
    (w.run events).registry.current? (w.run events).now source = some w.registry.tools := by
  rw [current?, hsame.tools, hsame.source, hsame.since, settings_run,
    if_pos ⟨hne, hsource, htime⟩]

/-- Documents are always kept for the same time. -/
theorem lifetime_run (w : World) (events : List Event) :
    (w.run events).registry.loader.lifetime = w.registry.loader.lifetime := by
  induction events using List.reverseRecOn with
  | nil => rfl
  | append_singleton events e ih =>
    rw [run_snoc, ← ih]
    cases e with
    | change sources => rfl
    | advance seconds nonneg => rfl
    | load source => exact Loader.lifetime_load _ _ _ _
    | loadTools named =>
      rcases Registry.loader_load (w.run events).registry (w.run events).now (w.run events).sources
        named with hsame | ⟨other, -, hloader, -⟩
      · exact congrArg Loader.lifetime hsame
      · exact (congrArg Loader.lifetime hloader).trans (Loader.lifetime_load _ _ _ _)

/-- A document that a run gives in the end was kept before it and is within its time, or was read
from its source during the run. -/
theorem origin_of_document {w : World} {events : List Event} {e : Event} {source : Text} {k : Kept}
    (h : ((w.run events).documentAnswer source).outcome.outcome = .ok k)
    (hask : ((w.run events).documentAnswer source).fetched = true → (w.run events).Asks e source) :
    (w.registry.loader.kept.get? source = some k ∧
      (w.run events).now - k.since < w.registry.loader.lifetime) ∨
    (w.ReadDuring (events ++ [e]) source k.since k.document ∧
      IsRecent (w.run events).now w.registry.loader.lifetime k.since) := by
  cases Loader.loads (w.run events).registry.loader (w.run events).now (w.run events).sources
    source with
  | kept k' hcurrent houtcome =>
    rw [documentAnswer, houtcome] at h
    cases h
    obtain ⟨hkept, htime⟩ := Loader.kept_of_current? hcurrent
    rw [lifetime_run] at htime
    rcases kept_origin w events hkept with hold | hread
    · exact .inl ⟨hold, htime⟩
    · exact .inr ⟨hread.append [e], .inr htime⟩
  | failed _ houtcome =>
    rw [documentAnswer, houtcome] at h
    cases h
  | read document hgives houtcome _ hasked =>
    rw [documentAnswer, houtcome] at h
    cases h
    exact .inr ⟨readDuring_snoc (hask hasked) hgives, .inl rfl⟩

/-- A document that was not kept or whose time was over is not given again: what a run gives in the
end was read during it. -/
theorem read_of_document (hexpired : w.Expired source) (e : Event)
    (h : ((w.run events).documentAnswer source).outcome.outcome = .ok k)
    (hask : ((w.run events).documentAnswer source).fetched = true → (w.run events).Asks e source) :
    w.ReadDuring (events ++ [e]) source k.since k.document ∧
      IsRecent (w.run events).now w.registry.loader.lifetime k.since := by
  rcases origin_of_document h hask with ⟨hkept, htime⟩ | hread
  · have hover := hexpired k hkept
    have hnow := now_le_run w events
    grind
  · exact hread

/-- Tools that were built during a run are those of a document that was read before from their
source, recently at that time, if none was kept when the run began. -/
theorem BuiltDuring.exists_read {t : Moment} {document : Document} {tools : List Tool}
    (h : w.BuiltDuring events source t document tools) (hexpired : w.Expired source) :
    AreToolsOf w.registry.settings tools document ∧ t ≤ (w.run events).now ∧
      ∃ u ≤ t, w.ReadDuring events source u document ∧
        IsRecent t w.registry.loader.lifetime u := by
  obtain ⟨before, named, after, rfl, rfl, hmeant, hcurrent, ⟨k, hk, rfl⟩, hcontent⟩ := h
  rw [settings_run] at hcontent
  have hask : ((w.run before).documentAnswer source).fetched = true →
      (w.run before).Asks (.loadTools named) source := by
    intro hfetched
    exact ⟨hmeant, (fetched_load hmeant hcurrent).trans hfetched⟩
  obtain ⟨hread, hrecent⟩ := read_of_document hexpired _ hk hask
  refine ⟨hcontent, ?_, k.since, hread.le_of_snoc rfl, ?_, hrecent⟩
  · rw [run_append]
    exact now_le_run _ _
  · have hmore := hread.append after
    rwa [List.append_assoc, List.singleton_append] at hmore

end Origins

section Sample

/-- The bytes of a document with one operation. -/
def sampleBytes : Bytes :=
  let info : Text := "\"info\":\x7b\"title\":\"N\",\"version\":\"1\"\x7d"
  let responses : Text := "\"responses\":\x7b\"200\":\x7b\"description\":\"ok\"\x7d\x7d"
  let text : Text := "\x7b\"openapi\":\"3.0.0\"," ++ info ++
    ",\"paths\":\x7b\"/n\":\x7b\"get\":\x7b" ++ responses ++ "\x7d\x7d\x7d\x7d"
  text.flatMap Encoding.utf8Bytes

/-- A file that holds the document, and no other source. -/
def sampleSources : Sources := ⟨[("n.json", sampleBytes)], []⟩

end Sample

end World

end Registry

end ApiTools
