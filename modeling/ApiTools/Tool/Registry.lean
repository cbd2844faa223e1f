import ApiTools.Document.Loader
import ApiTools.Settings.Basic
import ApiTools.Tool.Catalog

/-!
# The registry of tools

The registry has the catalog of one source at a time, restricted to the tools offered, with the
document it was built from. A catalog that is not empty is used again for some time; one that
cannot be had changes nothing.
-/

namespace ApiTools

/-- Why there is no catalog. -/
inductive RegistryError where
  | noSource
  | source (e : SourceError)
  | collision (e : CollisionError)
deriving DecidableEq

/-- The report of a catalog that cannot be had. -/
def RegistryError.message : RegistryError → Text
  | .noSource => "No OpenAPI document configured (set ADAPTER_OPENAPI_URL)"
  | .source e => e.message
  | .collision e => e.message

/-- The catalog that was built last. -/
structure Registry where
  settings : Settings
  loader : Document.Loader
  /-- The document that the tools were built from. -/
  document : Option Document
  tools : List Tool
  source : Option Text
  /-- When the tools were built. -/
  since : Moment

namespace Registry

/-- Nothing built yet. -/
def empty (settings : Settings) : Registry :=
  ⟨settings, .empty settings.documentCacheSeconds, none, [], none, 0⟩

/-- The source that is meant: the one named, or else the one configured. -/
def sourceOf? (r : Registry) (named : Option Text) : Option Text :=
  (Catalog.nonEmpty? named).or (Catalog.nonEmpty? r.settings.documentSource)

/-- The tools built for a source, if there are some and their time is not over. -/
def current? (r : Registry) (now : Moment) (source : Text) : Option (List Tool) :=
  if r.tools ≠ [] ∧ r.source = some source ∧ now - r.since < r.settings.toolCacheSeconds then
    some r.tools
  else none

/-- The tools that are offered. -/
def offered (s : Settings) (tools : List Tool) : List Tool :=
  match s.allowlist with
  | [] => tools
  | ids => tools.filter fun t ↦ t.id ∈ ids

/-- The warning about identifiers that several tools have. -/
def sharedWarnings (tools : List Tool) : List Text :=
  match (Catalog.collisions tools).length with
  | 0 => []
  | n => [Text.ofNat n ++ " tool ids are shared by more than one operation"]

/-- The catalog of a document as it is configured. -/
def build (s : Settings) (document : Document) : Logged RegistryError (List Tool) := do
  let tools ← (Catalog.build s.strictToolIds document).mapError .collision
  let tools := offered s tools
  ⟨sharedWarnings tools, .ok tools⟩

/-- What a request for a catalog gives. -/
structure Answer where
  outcome : Logged RegistryError (List Tool)
  registry : Registry
  sources : Sources
  /-- Was the source asked? -/
  fetched : Bool
  /-- Are these the tools that were built before? -/
  reused : Bool

/-- The tools of a source, built before or now. -/
def load (r : Registry) (now : Moment) (sources : Sources) (named : Option Text) : Answer :=
  match r.sourceOf? named with
  | none => ⟨Logged.fail .noSource, r, sources, false, false⟩
  | some source =>
    match r.current? now source with
    | some tools => ⟨pure tools, r, sources, false, true⟩
    | none =>
      let answer := r.loader.load now sources source
      let r := { r with loader := answer.loader }
      let built := do
        let kept ← answer.outcome.mapError RegistryError.source
        let tools ← build r.settings kept.document
        return (kept.document, tools)
      match built.outcome with
      | .error e => ⟨⟨built.warnings, .error e⟩, r, answer.sources, answer.fetched, false⟩
      | .ok (document, tools) =>
        ⟨⟨built.warnings, .ok tools⟩,
          { r with document := some document, tools, source := some source, since := now },
          answer.sources, answer.fetched, false⟩

end Registry

end ApiTools
