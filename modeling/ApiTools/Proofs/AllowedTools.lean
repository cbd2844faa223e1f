import ApiTools.Proofs.LoadedTexts
import ApiTools.Proofs.RegistryRuns
import ApiTools.Proofs.Signatures
import ApiTools.Proofs.SplitTexts
import ApiTools.Proofs.TrimmedTexts

/-!
# Allowed tools

The tools that are offered can be named in a list of identifiers, which is a text with commas
between them and blanks around them. A list of identifiers of a document's tools has these tools
offered and no others exactly if no identifier has a comma or ends in blanks
(`allowlisted_iff`): every other one is read as something else.
-/

namespace ApiTools

open List (Forall₂)
open Text (IsAll IsTrimmed)

namespace Settings

/-- An identifier with or without blanks around it. -/
def IsItem (item id : Text) : Prop :=
  ∃ before after, IsAll CodePoint.isBlank before ∧ IsAll CodePoint.isBlank after ∧
    item = before ++ (id ++ after)

/-- A text lists identifiers: they stand between commas, with or without blanks around them. -/
def Lists (text : Text) (ids : List Text) : Prop :=
  ∃ items, Forall₂ IsItem items ids ∧ text = Text.join [CodePoint.ofChar ','] items

/-- An identifier has no comma and no blanks at its ends. -/
structure IsListable (id : Text) : Prop where
  whole : CodePoint.ofChar ',' ∉ id
  trimmed : IsTrimmed CodePoint.isBlank id

instance (id : Text) : Decidable (IsListable id) :=
  decidable_of_iff (CodePoint.ofChar ',' ∉ id ∧ IsTrimmed CodePoint.isBlank id)
    ⟨fun h ↦ ⟨h.1, h.2⟩, fun h ↦ ⟨h.whole, h.trimmed⟩⟩

variable {text item id : Text} {ids items : List Text}

private theorem comma_notMem_of_isAll {blank : Text} (h : IsAll CodePoint.isBlank blank) :
    CodePoint.ofChar ',' ∉ blank := by
  intro hmem
  have hcomma := h _ hmem
  revert hcomma
  decide

private theorem IsItem.comma_notMem (h : IsItem item id) (hid : IsListable id) :
    CodePoint.ofChar ',' ∉ item := by
  obtain ⟨before, after, hbefore, hafter, rfl⟩ := h
  simp only [List.mem_append, not_or]
  exact ⟨comma_notMem_of_isAll hbefore, hid.whole, comma_notMem_of_isAll hafter⟩

private theorem IsItem.trim_eq (h : IsItem item id) (hid : IsListable id) :
    Text.trim CodePoint.isBlank item = id := by
  obtain ⟨before, after, hbefore, hafter, rfl⟩ := h
  rw [Text.trim_append hbefore hafter, Text.trim_eq_self_iff.mpr hid.trimmed]

private theorem map_trim_items (h : Forall₂ IsItem items ids) (hids : ∀ id ∈ ids, IsListable id) :
    items.map (Text.trim CodePoint.isBlank) = ids := by
  induction h with
  | nil => rfl
  | cons hitem _ ih =>
    obtain ⟨hid, hrest⟩ := List.forall_mem_cons.mp hids
    rw [List.map_cons, hitem.trim_eq hid, ih hrest]

private theorem comma_notMem_items (h : Forall₂ IsItem items ids)
    (hids : ∀ id ∈ ids, IsListable id) :
    ∀ item ∈ items, CodePoint.ofChar ',' ∉ item := by
  intro item hitem
  obtain ⟨id, hid, hof⟩ := exists_partner h.flip hitem
  exact IsItem.comma_notMem hof (hids id hid)

/-- Identifiers that can be listed are found again in what lists them. -/
theorem listed_of_lists (h : Lists text ids) (hne : ids ≠ []) (hids : ∀ id ∈ ids, IsListable id)
    (hnonempty : [] ∉ ids) : listed text = ids := by
  obtain ⟨items, hitems, rfl⟩ := h
  have hsome : items ≠ [] := by
    rintro rfl
    cases hitems
    exact hne rfl
  rw [listed, Text.splitOn_join hsome (comma_notMem_items hitems hids), map_trim_items hitems hids,
    List.filter_eq_self]
  intro id hid
  exact decide_eq_true fun hnil ↦ hnonempty (hnil ▸ hid)

/-- What is found in a list can be listed. -/
theorem isListable_of_mem_listed (h : id ∈ listed text) : IsListable id := by
  obtain ⟨piece, hpiece, rfl⟩ := List.mem_map.mp (List.mem_of_mem_filter h)
  obtain ⟨before, after, -, -, hwhole⟩ := Text.exists_trim CodePoint.isBlank piece
  refine ⟨fun hcomma ↦ Text.notMem_of_mem_splitOn piece hpiece ?_, Text.isTrimmed_trim _ _⟩
  rw [hwhole]
  exact List.mem_append_right _ (List.mem_append_left _ hcomma)

/-- A list with a code point that is no comma and no blank is not empty. -/
theorem listed_ne_nil {c : CodePoint} (hmem : c ∈ text) (hcomma : c ≠ CodePoint.ofChar ',')
    (hblank : c.isBlank = false) : listed text ≠ [] := by
  obtain ⟨piece, hpiece, hc⟩ := Text.exists_mem_splitOn hmem hcomma
  refine List.ne_nil_of_mem (List.mem_filter.mpr ⟨List.mem_map_of_mem hpiece, ?_⟩)
  refine decide_eq_true fun hnil ↦ ?_
  obtain ⟨before, after, hbefore, hafter, hwhole⟩ := Text.exists_trim CodePoint.isBlank piece
  rw [hnil, List.nil_append] at hwhole
  rw [hwhole] at hc
  rw [hbefore.append hafter c hc] at hblank
  cases hblank

private theorem subset_of_lists (h : Lists text ids) (hid : id ∈ ids) : id ⊆ text := by
  obtain ⟨items, hitems, rfl⟩ := h
  obtain ⟨item, hitem, before, after, -, -, rfl⟩ := exists_partner hitems hid
  intro c hc
  exact Text.subset_join hitem (List.mem_append_right _ (List.mem_append_left _ hc))

end Settings

namespace Document

/-- Documents that are read have operations under the names of methods alone. -/
theorem Gives.namesMethods {sources : Sources} {source : Text} {document : Document}
    (h : Gives sources source document) : document.NamesMethods := by
  obtain ⟨bytes, -, hparse⟩ := h
  obtain ⟨spec, -, hspec⟩ := exists_of_parse hparse
  exact namesMethods_of_ofSpec hspec

end Document

namespace Registry

open Settings (IsListable Lists listed)

section Offered

variable {s : Settings} {document : Document} {text : Text} {ids : List Text}

private theorem exists_mem_methods : ∀ m ∈ Spec.methods,
    ∃ c ∈ m, c ≠ CodePoint.ofChar ',' ∧ c.isBlank = false := by decide

/-- The identifier of a tool has the letters of its method, if nothing else. -/
theorem exists_mem_id (hmethods : document.NamesMethods) {tool : Tool}
    (h : tool ∈ Catalog.ofDocument document) :
    ∃ c ∈ tool.id, c ≠ CodePoint.ofChar ',' ∧ c.isBlank = false := by
  obtain ⟨m, hm, hid⟩ := Emission.exists_isPrefix_id hmethods h
  obtain ⟨c, hc, hletter⟩ := exists_mem_methods m hm
  exact ⟨c, hid.subset hc, hletter⟩

private theorem offered_eq_filter (hallow : s.toolAllowlist = some text) (hne : listed text ≠ [])
    (tools : List Tool) : offered s tools = tools.filter fun t ↦ t.id ∈ listed text := by
  have hlist : s.allowlist = listed text := by
    rw [Settings.allowlist, hallow]
    rfl
  rw [offered, hlist]
  cases hlisted : listed text with
  | nil => exact absurd hlisted hne
  | cons id rest => rfl

/-- The tools with the identifiers in a list are those that are offered exactly if all of these can
be listed. -/
theorem offered_eq_filter_iff (hmethods : document.NamesMethods)
    (hallow : s.toolAllowlist = some text) (hne : ids ≠ [])
    (hids : ∀ id ∈ ids, ∃ tool ∈ Catalog.ofDocument document, tool.id = id)
    (hlists : Lists text ids) :
    offered s (Catalog.ofDocument document) =
        (Catalog.ofDocument document).filter (fun t ↦ t.id ∈ ids) ↔
      ∀ id ∈ ids, IsListable id := by
  have hletter : ∀ id ∈ ids, ∃ c ∈ id, c ≠ CodePoint.ofChar ',' ∧ c.isBlank = false := by
    intro id hid
    obtain ⟨tool, htool, rfl⟩ := hids id hid
    exact exists_mem_id hmethods htool
  have hsome : listed text ≠ [] := by
    obtain ⟨id, hid⟩ := List.exists_mem_of_ne_nil ids hne
    obtain ⟨c, hc, hcomma, hblank⟩ := hletter id hid
    exact Settings.listed_ne_nil (Settings.subset_of_lists hlists hid hc) hcomma hblank
  rw [offered_eq_filter hallow hsome]
  constructor
  · -- A tool that is offered is found in the list, and what is found there can be listed.
    intro heq id hid
    obtain ⟨tool, htool, rfl⟩ := hids id hid
    have hoffered : tool ∈ (Catalog.ofDocument document).filter fun t ↦ t.id ∈ listed text := by
      rw [heq]
      exact List.mem_filter.mpr ⟨htool, decide_eq_true hid⟩
    exact Settings.isListable_of_mem_listed (of_decide_eq_true (List.mem_filter.mp hoffered).2)
  · intro hlistable
    have hnonempty : [] ∉ ids := by
      intro hnil
      obtain ⟨c, hc, -⟩ := hletter [] hnil
      cases hc
    rw [Settings.listed_of_lists hlists hne hlistable hnonempty]

end Offered

namespace World

variable {s : Settings} {sources : Sources} {now : Moment} {events : List Event}
  {named : Option Text} {source text : Text} {tools : List Tool}

/-- Tools that are given are those of the registry's document, which was read from a source. -/
theorem document_of_toolsAnswer
    (h : (((start s sources now).run events).toolsAnswer named).outcome.outcome = .ok tools) :
    ∃ document, (((start s sources now).run events).toolsAnswer named).registry.document =
        some document ∧
      document.NamesMethods ∧ AreToolsOf s tools document := by
  -- The registry had no source at the start, so its catalog was built at some time.
  obtain ⟨htools, hsource⟩ := tools_of_ok h
  have horigin := catalog_origin (start s sources now) (events ++ [.loadTools named])
  rw [run_snoc] at horigin
  rcases horigin with hsame | ⟨source, t, document, built, hcatalog, hbuilt⟩
  · exact absurd hsame.source hsource
  · obtain rfl : built = tools := hcatalog.tools.symm.trans htools
    obtain ⟨hcontent, -, u, -, ⟨_, _, _, -, -, -, hgives⟩, -⟩ := hbuilt.exists_read nofun
    exact ⟨document, hcatalog.document, hgives.namesMethods, hcontent⟩

/-- Whatever was asked for before, the tools of a document that can be had are given. Tools that are
given, new or not, are tools of the registry's document. If identifiers of tools of that document
are listed, the tools with these identifiers are given, in the order of the document, exactly if
none of the identifiers has a comma or blanks at its ends. -/
theorem allowlisted_iff (hallow : s.toolAllowlist = some text) (hlenient : s.strictToolIds = false)
    {w : World} (hrun : w = (start s sources now).run events)
    (hmeant : w.registry.sourceOf? named = some source) :
    (∀ k, w.registry.current? w.now source = none →
      (w.documentAnswer source).outcome.outcome = .ok k →
      ∃ tools, (w.toolsAnswer named).outcome.outcome = .ok tools ∧
        (w.toolsAnswer named).registry.document = some k.document) ∧
    ∀ tools, (w.toolsAnswer named).outcome.outcome = .ok tools →
      ∃ document built, (w.toolsAnswer named).registry.document = some document ∧
        (Catalog.build false document).outcome = .ok built ∧
        ∀ ids, ids ≠ [] → (∀ id ∈ ids, ∃ tool ∈ built, tool.id = id) → Lists text ids →
          (tools = built.filter (fun t ↦ t.id ∈ ids) ↔ ∀ id ∈ ids, IsListable id) := by
  subst hrun
  constructor
  · intro k hcurrent hk
    have hsettings : ((start s sources now).run events).registry.settings = s := settings_run _ _
    have hbuilt : (build ((start s sources now).run events).registry.settings k.document).outcome =
        .ok (offered s (Catalog.ofDocument k.document)) := by
      rw [hsettings]
      refine build_ok_iff.mpr ⟨_, ?_, rfl⟩
      rw [hlenient]
      exact Catalog.outcome_build_false k.document
    exact ⟨_, load_of_document hmeant hcurrent hk hbuilt⟩
  · intro tools hgiven
    obtain ⟨document, hdocument, hmethods, built, hbuilt, rfl⟩ := document_of_toolsAnswer hgiven
    rw [hlenient] at hbuilt
    refine ⟨document, built, hdocument, hbuilt, fun ids hne hids hlists ↦ ?_⟩
    obtain rfl := Catalog.eq_ofDocument_of_build hbuilt
    exact offered_eq_filter_iff hmethods hallow hne hids hlists

/-- The bytes of a document with an operation under each of some paths. -/
private def bytesOfPaths (paths : List Text) : Bytes :=
  let info : Text := "\"info\":\x7b\"title\":\"N\",\"version\":\"1\"\x7d"
  let responses : Text := "\"responses\":\x7b\"200\":\x7b\"description\":\"ok\"\x7d\x7d"
  let items := paths.map fun path : Text ↦
    "\"" ++ path ++ "\":\x7b\"get\":\x7b" ++ responses ++ "\x7d\x7d"
  let text : Text := "\x7b\"openapi\":\"3.0.0\"," ++ info ++ ",\"paths\":\x7b" ++
    Text.join "," items ++ "\x7d\x7d"
  text.flatMap Encoding.utf8Bytes

/-- Settings under which the tools of a list are offered. -/
private def listingSettings (text : Text) : Settings :=
  { Settings.standard with toolAllowlist := some text }

/-- A world with these settings and a file that holds such a document. -/
private def listing (text : Text) (paths : List Text) : World :=
  start (listingSettings text) ⟨[("n.json", bytesOfPaths paths)], []⟩ 0

/-- Two of three tools are listed, in another order. -/
private def twoOfThree : World := listing " getC,getA B\t" ["/a b", "/b", "/c"]

/-- Of three tools the two that a list with white space around its entries names are left. -/
theorem allowlisted_iff_two_of_three :
    ∃ tools, ∃ built : List Tool,
      (twoOfThree.toolsAnswer (some ("n.json" : Text))).outcome.outcome = .ok tools ∧
      built.map (·.id) = ["getA B", "getB", "getC"] ∧
      Lists " getC,getA B\t" ["getC", "getA B"] ∧
      tools = built.filter fun t ↦ t.id ∈ (["getC", "getA B"] : List Text) := by
  obtain ⟨hmeant, hcurrent, hisOk, hids⟩ :
      twoOfThree.registry.sourceOf? (some ("n.json" : Text)) = some ("n.json" : Text) ∧
      twoOfThree.registry.current? 0 "n.json" = none ∧
      (twoOfThree.documentAnswer "n.json").outcome.outcome.isOk = true ∧
      (twoOfThree.toolsAnswer (some ("n.json" : Text))).registry.document.map
        (fun document ↦ (Catalog.ofDocument document).map (·.id)) =
          some (["getA B", "getB", "getC"] : List Text) := by decide +kernel
  have hlists : Lists " getC,getA B\t" ["getC", "getA B"] :=
    ⟨[" getC", "getA B\t"],
      .cons ⟨" ", [], by decide, by decide, by decide⟩
        (.cons ⟨[], "\t", by decide, by decide, by decide⟩ .nil), by decide⟩
  obtain ⟨k, hk⟩ := Outcome.exists_of_isOk hisOk
  have hrun : twoOfThree = (start (listingSettings " getC,getA B\t") twoOfThree.sources 0).run [] :=
    rfl
  obtain ⟨hgives, hgiven⟩ := allowlisted_iff rfl rfl hrun hmeant
  obtain ⟨tools, htools, -⟩ := hgives k hcurrent hk
  obtain ⟨document, built, hdocument, hbuilt, hallowed⟩ := hgiven tools htools
  rw [hdocument, Option.map_some, ← Catalog.eq_ofDocument_of_build hbuilt, Option.some.injEq]
    at hids
  refine ⟨tools, built, htools, hids, hlists, ?_⟩
  refine (hallowed _ (List.cons_ne_nil _ _) (fun id hid ↦ ?_) hlists).mpr (by decide)
  have hmem : id ∈ built.map (·.id) := by
    rw [hids]
    revert id
    decide
  exact List.mem_map.mp hmem

/-- A tool whose identifier has a comma is not offered where this identifier is the only one that is
listed. -/
theorem comma_not_listed :
    ∃ document, ((listing "getA,B" ["/a,b"]).toolsAnswer
        (some ("n.json" : Text))).registry.document = some document ∧
      Lists "getA,B" ["getA,B"] ∧ (Catalog.ofDocument document).map (·.id) = ["getA,B"] ∧
      ((listing "getA,B" ["/a,b"]).toolsAnswer (some ("n.json" : Text))).outcome.outcome ≠
        .ok ((Catalog.ofDocument document).filter fun t ↦ t.id ∈ (["getA,B"] : List Text)) := by
  obtain ⟨hids, hnone⟩ :
      ((listing "getA,B" ["/a,b"]).toolsAnswer (some ("n.json" : Text))).registry.document.map
        (fun document ↦ (Catalog.ofDocument document).map (·.id)) =
          some (["getA,B"] : List Text) ∧
      ((listing "getA,B" ["/a,b"]).toolsAnswer (some ("n.json" : Text))).outcome.outcome =
        .ok [] := by decide +kernel
  obtain ⟨document, hdocument, hids⟩ := Option.map_eq_some_iff.mp hids
  refine ⟨document, hdocument, ⟨["getA,B"], .cons ⟨[], [], nofun, nofun, rfl⟩ .nil, rfl⟩, hids, ?_⟩
  rw [hnone]
  intro heq
  have hall : (Catalog.ofDocument document).filter (fun t ↦ t.id ∈ (["getA,B"] : List Text)) =
      Catalog.ofDocument document := by
    rw [List.filter_eq_self]
    intro tool htool
    have hmem := List.mem_map_of_mem (f := (·.id)) htool
    rw [hids] at hmem
    exact decide_eq_true hmem
  rw [hall, Except.ok.injEq] at heq
  rw [← heq] at hids
  cases hids

end World

end Registry

end ApiTools
