import ApiTools.CommandLine.Run
import ApiTools.Proofs.CatalogTexts
import ApiTools.Proofs.EmbeddedTools
import ApiTools.Proofs.Loads
import ApiTools.Proofs.RepeatedNames

/-!
# Printed catalogs

Tools are printed as JSON in which all that is not ASCII is written by number, so that the halves of
a surrogate pair would be read back as one character. Since no text of a tool of a loaded document
holds a surrogate (`Catalog.holdsClean_toRecord`), what is printed is read back, and the tools are
read back from their records. It counts the identifiers that several tools have. It lists the names
that several parameters of one tool were given under the tool's identifier, where those of a later
tool take the place of those of an earlier one (`printed_catalog_read_back`).
-/

namespace ApiTools

open Spec (HoldsClean)

/-- A value that is read back from its literal has distinct names. -/
theorem Literal.Plain.distinctNames {v : Json} (h : Literal.Plain v) : v.DistinctNames := by
  induction h with
  | null => exact .null
  | bool b => exact .bool b
  | string t => exact .string t
  | array _ ih => exact .array ih
  | object hdistinct _ ih => exact .object hdistinct ih

namespace CommandLine

open Catalog (AreRepeated SharesNames repeatedParameters)

variable {s : Settings} {sources : Sources} {tools : List Tool} {document : Option Document}

/-- Names are listed under the identifiers of the tools that share names, each identifier once:
those that the last such tool repeats. -/
structure AreShared (shared : Fields Json) (tools : List Tool) : Prop where
  distinct : shared.Distinct
  mem_names_iff : ∀ id, id ∈ shared.names ↔ ∃ tool ∈ tools, tool.id = id ∧ SharesNames tool
  listed : ∀ f ∈ shared, ∃ before tool behind, tools = before ++ tool :: behind ∧
    tool.id = f.1 ∧ SharesNames tool ∧ (∀ later ∈ behind, later.id = f.1 → ¬SharesNames later) ∧
    ∃ names : List Text, f.2 = .array (names.map Value.string) ∧
      AreRepeated names (tool.parameters.map (·.sanitizedName))

/-- A value describes some tools and counts and lists their names that are not unique. -/
structure IsCatalogOf (v : Json) (tools : List Tool) : Prop where
  records : ∃ records, v.field? "tools" = some (.array records) ∧
    records.mapM Tool.ofRecord = .ok tools
  collisions : v.field? "id_collisions" =
    some (.int (Set.ncard {id | 2 ≤ (tools.filter (·.id = id)).length}))
  shared : ∃ shared : Fields Json, v.field? "parameter_name_collisions" = some (.object shared) ∧
    AreShared shared tools

section Records

/-- What is set for a tool, if several of its parameters share a name. -/
def sharing? (tool : Tool) : Option (Text × Json) :=
  match repeatedParameters tool with
  | [] => none
  | names => some (tool.id, .array (names.map Value.string))

private theorem catalogRecord_eq (tools : List Tool) : catalogRecord tools =
    .object [("tools", .array (tools.map Tool.toRecord)),
      ("id_collisions", .int (Catalog.collisions tools).length),
      ("parameter_name_collisions", .object (Fields.ofList (tools.filterMap sharing?)))] := rfl

private theorem sharing?_eq_some_iff {tool : Tool} {f : Text × Json} : sharing? tool = some f ↔
    SharesNames tool ∧ (tool.id, .array ((repeatedParameters tool).map Value.string)) = f := by
  rw [← Catalog.repeatedParameters_ne_nil_iff]
  unfold sharing?
  split
  · next hnone => simp [hnone]
  · next hsome => rw [Option.some.injEq, and_iff_right hsome]

/-- What is left under an identifier was set for a tool that has it. -/
theorem exists_of_mem_ofList {f : Text × Json} (h : f ∈ Fields.ofList (tools.filterMap sharing?)) :
    ∃ tool ∈ tools, (tool.id, .array ((repeatedParameters tool).map Value.string)) = f := by
  obtain ⟨tool, htool, hset⟩ := List.mem_filterMap.mp (Fields.mem_of_mem_ofList h)
  exact ⟨tool, htool, (sharing?_eq_some_iff.mp hset).2⟩

private theorem areShared_ofList (tools : List Tool) :
    AreShared (Fields.ofList (tools.filterMap sharing?)) tools where
  distinct := Fields.distinct_ofList _
  mem_names_iff := by
    intro id
    rw [Fields.mem_names_ofList, Fields.names, List.mem_map]
    constructor
    · rintro ⟨f, hf, rfl⟩
      obtain ⟨tool, htool, hset⟩ := List.mem_filterMap.mp hf
      obtain ⟨hshares, rfl⟩ := sharing?_eq_some_iff.mp hset
      exact ⟨tool, htool, rfl, hshares⟩
    · rintro ⟨tool, htool, rfl, hshares⟩
      exact ⟨_, List.mem_filterMap.mpr ⟨tool, htool, sharing?_eq_some_iff.mpr ⟨hshares, rfl⟩⟩, rfl⟩
  listed := by
    intro f hf
    obtain ⟨before, tool, behind, htools, hset, hlater⟩ := Fields.exists_last_of_mem_ofList hf
    obtain ⟨hshares, rfl⟩ := sharing?_eq_some_iff.mp hset
    refine ⟨before, tool, behind, htools, rfl, hshares, fun later hmem hid hagain ↦ ?_,
      _, rfl, Catalog.areRepeated_repeated _⟩
    exact hlater later hmem _ (sharing?_eq_some_iff.mpr ⟨hagain, congrArg (·, _) hid⟩)

private theorem isCatalogOf_catalogRecord (tools : List Tool) :
    IsCatalogOf (catalogRecord tools) tools where
  records := ⟨_, rfl, Outcome.mapM_map_ok Tool.ofRecord_toRecord tools⟩
  collisions := by
    rw [← Catalog.length_collisions]
    rfl
  shared := ⟨_, rfl, areShared_ofList tools⟩

private theorem distinctNames_catalogRecord (tools : List Tool) :
    (catalogRecord tools).DistinctNames := by
  have hnames : (["tools", "id_collisions", "parameter_name_collisions"] : List Text).Nodup := by
    decide
  rw [catalogRecord_eq]
  refine .object hnames fun f hf ↦ ?_
  simp only [List.mem_cons, List.not_mem_nil, or_false] at hf
  rcases hf with rfl | rfl | rfl
  · refine .array (List.forall_mem_map.mpr fun tool _ ↦ ?_)
    exact tool.plain_toRecord.distinctNames
  · exact .int _
  · refine .object (Fields.distinct_ofList _) fun f hf ↦ ?_
    obtain ⟨tool, -, rfl⟩ := exists_of_mem_ofList hf
    exact .array (List.forall_mem_map.mpr fun t _ ↦ .string t)

/-- What a tool is listed with is part of its record. -/
theorem isClean_of_toRecord {tool : Tool} (h : HoldsClean tool.toRecord) :
    tool.id.IsClean ∧ ∀ p ∈ tool.parameters, p.sanitizedName.IsClean := by
  have hfields := Value.allTexts_object_iff.mp h
  constructor
  · exact Value.allTexts_string_iff.mp (hfields ("tool_id", .string tool.id) (by simp)).2
  · intro p hp
    have hrecords := (hfields ("parameters", .array (tool.parameters.map Parameter.toRecord))
      (by simp)).2
    have hrecord := Value.allTexts_object_iff.mp
      (Value.allTexts_array_iff.mp hrecords p.toRecord (List.mem_map_of_mem hp))
    exact Value.allTexts_string_iff.mp
      (hrecord ("sanitized_name", .string p.sanitizedName) (by simp)).2

private theorem holdsClean_catalogRecord (h : ∀ tool ∈ tools, HoldsClean tool.toRecord) :
    HoldsClean (catalogRecord tools) := by
  rw [catalogRecord_eq, HoldsClean, Value.allTexts_object_iff]
  simp only [List.forall_mem_cons]
  refine ⟨⟨by decide, .array (List.forall_mem_map.mpr h)⟩, ⟨by decide, .int _⟩, ⟨by decide, ?_⟩,
    List.forall_mem_nil _⟩
  refine Value.allTexts_object_iff.mpr fun f hf ↦ ?_
  obtain ⟨tool, htool, rfl⟩ := exists_of_mem_ofList hf
  obtain ⟨hid, hnames⟩ := isClean_of_toRecord (h tool htool)
  refine ⟨hid, .array (List.forall_mem_map.mpr fun name hname ↦ .string ?_)⟩
  obtain ⟨p, hp, rfl⟩ := List.mem_map.mp ((Catalog.areRepeated_repeated _).subset hname)
  exact hnames p hp

/-- Every console takes the text that tools are printed as. -/
theorem Console.refusal?_catalogRecord (console : Console) (tools : List Tool) :
    console.refusal? (Json.write .indented (catalogRecord tools)) = none := by
  refine console.refusal?_ascii _ fun c hc ↦ decide_eq_true ?_
  exact (Json.isAscii_write ⟨rfl, by decide, by decide⟩ (catalogRecord tools) c hc).2

/-- The text that tools are printed as is read back. -/
theorem parse?_runTools (h : ∀ tool ∈ tools, HoldsClean tool.toRecord) :
    Json.parse? (runTools tools).output = some (catalogRecord tools) := by
  have hclean := holdsClean_catalogRecord h
  have hdistinct := distinctNames_catalogRecord tools
  have hread := Json.readsAs_self Json.Style.isLawful_indented hdistinct
    hdistinct.numbersWithin_none fun _ ↦ hclean.imp fun _ ↦ Text.IsClean.isJoined
  exact hread.parse?_append (by decide)

end Records

/-- The tools that a command works on are those of a document without surrogates. -/
theorem exists_of_loadTools (h : loadTools s sources = .ok (tools, document)) :
    ∃ d, document = some d ∧ tools = Registry.offered s (Catalog.ofDocument d) ∧
      ∀ tool ∈ tools, HoldsClean tool.toRecord := by
  unfold loadTools at h
  dsimp only at h
  split at h
  · cases h
  · next houtcome =>
    obtain ⟨source, d, ⟨bytes, -, hparse⟩, ⟨built, hbuilt, hoffered⟩, hkept⟩ :=
      Registry.load_empty_ok houtcome
    obtain ⟨v, hv, hread⟩ := Document.exists_of_parse hparse
    obtain rfl := Catalog.eq_ofDocument_of_build hbuilt
    rw [hkept] at h
    cases h
    refine ⟨d, rfl, hoffered, fun tool htool ↦ ?_⟩
    rw [hoffered] at htool
    exact Catalog.holdsClean_toRecord hv hread tool (Registry.mem_of_mem_offered htool)

/-- Wherever tools are loaded, the command that prints them succeeds. They are those of all
operations of the document that the settings offer, and what is printed is JSON that describes them
all, in order and whether or not they share identifiers. It counts the identifiers that several of
them have, and lists the names that several parameters of one of them were given. -/
theorem printed_catalog_read_back (h : loadTools s sources = .ok (tools, document)) :
    (∃ d, document = some d ∧ tools = Registry.offered s (Catalog.ofDocument d)) ∧
      ∃ outcome catalog, runCommand s sources .tools = .ok outcome ∧ outcome.exit = 0 ∧
        Json.parse? outcome.output = some catalog ∧ IsCatalogOf catalog tools := by
  obtain ⟨d, hdocument, hoffered, hclean⟩ := exists_of_loadTools h
  refine ⟨⟨d, hdocument, hoffered⟩, runTools tools, catalogRecord tools, ?_, rfl,
    parse?_runTools hclean, isCatalogOf_catalogRecord tools⟩
  rw [runCommand, h]

/-- The bytes of a document with operations under some paths, with parameters of some names. -/
private def bytesOfParameters (operations : Fields (List Text)) : Bytes :=
  let info : Text := "\"info\":\x7b\"title\":\"N\",\"version\":\"1\"\x7d"
  let responses : Text := "\"responses\":\x7b\"200\":\x7b\"description\":\"é\"\x7d\x7d"
  let parameter (name : Text) : Text :=
    "\x7b\"name\":\"" ++ name ++ "\",\"in\":\"query\",\"schema\":\x7b\x7d\x7d"
  let items := operations.map fun (path, names) ↦
    "\"" ++ path ++ "\":\x7b\"get\":\x7b\"parameters\":[" ++ Text.join "," (names.map parameter)
      ++ "]," ++ responses ++ "\x7d\x7d"
  let text : Text := "\x7b\"openapi\":\"3.0.0\"," ++ info ++ ",\"paths\":\x7b" ++
    Text.join "," items ++ "\x7d\x7d"
  text.flatMap Encoding.utf8Bytes

/-- A file that holds a document of three operations with one identifier, two of them with
parameters that get one name. -/
private def sharingSources : Sources where
  files := [("n.json", bytesOfParameters [("/a-b", ["x.y", "z", "x-y"]),
    ("/a/b", ["p q", "é", "p:q", "p-q"]), ("/a_b", [])])]
  replies := []

/-- Settings that name it. -/
private def sharingSettings : Settings :=
  { Settings.standard with documentSource := some "n.json" }

/-- What the tools and their parameters are called. -/
private def sharingNames : List (Text × List Text) :=
  [("getA_b", ["x_y", "z", "x_y"]), ("getA_b", ["p_q", "é", "p_q", "p_q"]), ("getA_b", [])]

/-- Operations of one identifier and parameters of one sanitized name are printed and read back. -/
theorem printed_catalog_read_back_shared :
    ∃ tools document, loadTools sharingSettings sharingSources = .ok (tools, document) ∧
      tools.map (fun tool ↦ (tool.id, tool.parameters.map (·.sanitizedName))) = sharingNames ∧
      ∃ outcome catalog, runCommand sharingSettings sharingSources .tools = .ok outcome ∧
        Json.parse? outcome.output = some catalog ∧ IsCatalogOf catalog tools := by
  have hnames : (loadTools sharingSettings sharingSources).map (fun loaded ↦
      loaded.1.map fun tool ↦ (tool.id, tool.parameters.map (·.sanitizedName))) =
        .ok sharingNames := by decide +kernel
  obtain ⟨⟨tools, document⟩, hload, htools⟩ := Outcome.map_ok_iff.mp hnames
  obtain ⟨-, outcome, catalog, hrun, -, hread, hcatalog⟩ := printed_catalog_read_back hload
  exact ⟨tools, document, hload, htools, outcome, catalog, hrun, hread, hcatalog⟩

end CommandLine

end ApiTools
