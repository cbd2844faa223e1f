import ApiTools.Document.Load
import ApiTools.Document.Source

/-!
# Keeping documents

A document that was read is kept for some time, and read again from its source only after that. A
document that cannot be read changes nothing: what is kept stays, and is not used beyond its
time.
-/

namespace ApiTools

/-- Points in time, in seconds from some start. -/
abbrev Moment := Rat

/-- Why a source has no document. -/
inductive SourceError where
  | fetch (e : FetchError)
  | load (e : LoadError)
deriving DecidableEq

/-- The report of a source without a document. -/
def SourceError.message : SourceError → Text
  | .fetch e => e.message
  | .load e => e.message

namespace Document

/-- A document that is kept. -/
structure Kept where
  document : Document
  /-- When it was read. -/
  since : Moment
  /-- How many documents had been read before it. -/
  version : Nat

/-- The documents kept, by their sources. -/
structure Loader where
  /-- For how many seconds a document is kept. -/
  lifetime : Int
  kept : Fields Kept
  /-- How many documents have been read. -/
  versions : Nat

namespace Loader

/-- No documents yet. -/
def empty (lifetime : Int) : Loader := ⟨lifetime, [], 0⟩

/-- The document kept for a source, if its time is not over. -/
def current? (l : Loader) (now : Moment) (source : Text) : Option Kept :=
  (l.kept.get? source).filter fun k ↦ now - k.since < l.lifetime

/-- What a request for a document gives. -/
structure Answer where
  outcome : Logged SourceError Kept
  loader : Loader
  sources : Sources
  /-- Was the source asked? -/
  fetched : Bool

/-- A document read from its source. -/
def read (sources : Sources) (source : Text) : Logged SourceError Document × Sources :=
  let (content, rest) := fetch sources source
  match content with
  | .error e => (Logged.fail (.fetch e), rest)
  | .ok bytes => ((parse bytes).mapError .load, rest)

/-- The document of a source, kept or read. -/
def load (l : Loader) (now : Moment) (sources : Sources) (source : Text) : Answer :=
  match l.current? now source with
  | some k => ⟨pure k, l, sources, false⟩
  | none =>
    let (document, rest) := read sources source
    match document.outcome with
    | .error e => ⟨⟨document.warnings, .error e⟩, l, rest, true⟩
    | .ok d =>
      let k := ⟨d, now, l.versions⟩
      ⟨⟨document.warnings, .ok k⟩, { l with kept := l.kept.set source k, versions := l.versions + 1 },
        rest, true⟩

end Loader

end Document

end ApiTools
