import ApiTools.Proofs.CatalogTools
import ApiTools.Proofs.LiteralValues
import ApiTools.Proofs.SourceLines
import ApiTools.Proofs.ToolRecord

/-!
# Tools embedded in a server

The table of a generated server is source that is read back: it gives the tools of the index under
their identifiers, whatever their texts hold, and reading it ends where the template goes on
(`tools_read_back`).
-/

namespace ApiTools

/-- The record of a parameter is read back from its literal. -/
theorem Parameter.plain_toRecord (p : Parameter) : Literal.Plain p.toRecord := by
  obtain ⟨name, sanitizedName, location, required, primitiveType, enumValues, description⟩ := p
  refine .object (by decide : Parameter.recordNames.Nodup) fun f hf ↦ ?_
  simp only [List.mem_cons, List.not_mem_nil, or_false] at hf
  rcases hf with rfl | rfl | rfl | rfl | rfl | rfl | rfl
  · exact .string _
  · exact .string _
  · exact .string _
  · exact .bool _
  · exact .string _
  · cases enumValues with
    | none => exact .null
    | some values =>
      refine .array fun v hv ↦ ?_
      obtain ⟨t, -, rfl⟩ := List.mem_map.mp hv
      exact .string t
  · cases description with
    | none => exact .null
    | some t => exact .string t

/-- The record of a tool is read back from its literal. -/
theorem Tool.plain_toRecord (tool : Tool) : Literal.Plain tool.toRecord := by
  obtain ⟨id, description, path, method, parameters, hasBody, bodyRequired, bodyDescription⟩ := tool
  refine .object (by decide : Tool.recordNames.Nodup) fun f hf ↦ ?_
  simp only [List.mem_cons, List.not_mem_nil, or_false] at hf
  rcases hf with rfl | rfl | rfl | rfl | rfl | rfl | rfl | rfl
  · exact .string _
  · exact .string _
  · exact .string _
  · exact .string _
  · refine .array fun v hv ↦ ?_
    obtain ⟨p, -, rfl⟩ := List.mem_map.mp hv
    exact p.plain_toRecord
  · exact .bool _
  · exact .bool _
  · cases bodyDescription with
    | none => exact .null
    | some t => exact .string t

namespace Emission

open Catalog (index)
open Literal (IsWritten members? written lined)

/-! ### The readers -/

/-- A record in the call that makes a tool of it. -/
def record? (t : Text) : Option (Json × Text) := do
  let (v, rest) ← Literal.value? t.length (← behind? "ToolDefinition.from_dict(" t)
  return (v, ← behind? ")" rest)

/-- The table of tools, as records, and the source behind it. -/
def definitions? (t : Text) : Option (Fields Json × Text) := do
  members? record? (← behind? "TOOL_DEFINITIONS: Dict[str, ToolDefinition] = " t)

/-- The tool that a record describes, under its name in the table. -/
def toolOf (f : Text × Json) : Except RecordError (Text × Tool) := do
  return (f.1, ← Tool.ofRecord f.2)

/-- The tools that the records of a table describe. -/
def toolsOf (records : Fields Json) : Except RecordError (Fields Tool) := records.mapM toolOf

/-! ### The table -/

/-- The records of a server's tools. -/
def records (c : Content) : Fields Json := c.functions.map fun f ↦ (f.tool.id, f.tool.toRecord)

/-- A record in the call that makes a tool of it. -/
def writtenRecord (f : Text × Json) : Text :=
  Literal.text f.1 ++ (": " ++ ("ToolDefinition.from_dict(" ++ (written f.2 ++ ")")))

private theorem isWritten_record {v : Json} (h : Literal.Plain v) :
    IsWritten record? ("ToolDefinition.from_dict(" ++ (written v ++ ")")) v where
  begins := ⟨_, _, rfl, by decide⟩
  read := by
    intro rest _
    have hparts : "ToolDefinition.from_dict(" ++ (written v ++ ")") ++ rest =
        "ToolDefinition.from_dict(" ++ (written v ++ (")" ++ rest)) := by
      simp only [List.append_assoc]
    have hlength : (written v).length <
        ("ToolDefinition.from_dict(" ++ (written v ++ (")" ++ rest)) : Text).length := by
      simp only [List.length_append]
      have hstart : ("ToolDefinition.from_dict(" : Text).length = 25 := rfl
      omega
    have hends : Literal.Ended (")" ++ rest) := Literal.ended_cons rfl rest
    have hvalue := (h.isWritten hlength).read hends
    rw [hparts, record?, behind?_append]
    simp only [bind, Option.bind, hvalue, behind?_append, pure]

private theorem definitionEntry_eq (f : Function) :
    definitionEntry f = "\n    " ++ (writtenRecord (f.tool.id, f.tool.toRecord) ++ ",") := by
  have hcall : (": ToolDefinition.from_dict(" : Text) = ": " ++ "ToolDefinition.from_dict(" :=
    Text.ofString_eq_append rfl
  have hend : (")," : Text) = ")" ++ "," := Text.ofString_eq_append rfl
  rw [definitionEntry, writtenRecord, hcall, hend]
  simp only [List.append_assoc, written]

private theorem definitions_eq (c : Content) : definitions c =
    "TOOL_DEFINITIONS: Dict[str, ToolDefinition] = " ++
      CodePoint.ofChar '\x7b' :: (lined writtenRecord (records c) ++
        ("\n" ++ CodePoint.ofChar '\x7d' :: "\n")) := by
  have hstart : ("TOOL_DEFINITIONS: Dict[str, ToolDefinition] = \x7b" : Text) =
      "TOOL_DEFINITIONS: Dict[str, ToolDefinition] = " ++ "\x7b" := Text.ofString_eq_append rfl
  have hentries : c.functions.flatMap definitionEntry = lined writtenRecord (records c) := by
    rw [lined, records, List.flatMap_map]
    exact congrArg c.functions.flatMap (funext definitionEntry_eq)
  rw [definitions, hentries, hstart]
  simp only [List.append_assoc]
  rfl

/-- The table is read as its records, and reading it ends where the source goes on. -/
theorem definitions?_definitions {c : Content} (h : (records c).Distinct) (behind : Text) :
    definitions? (definitions c ++ behind) = some (records c, "\n" ++ behind) := by
  have hread : ∀ r ∈ records c, IsWritten (Literal.member? record?) (writtenRecord r) r := by
    intro r hr
    obtain ⟨f, -, rfl⟩ := List.mem_map.mp hr
    exact (isWritten_record f.tool.plain_toRecord).member
  have hlength := Literal.length_le_lined writtenRecord (records c)
  rw [definitions_eq, List.append_assoc, definitions?, behind?_append]
  simp only [bind, Option.bind, List.cons_append, List.append_assoc]
  -- The reader of lists counts parts down from the length of the source, and none is empty.
  rw [members?, if_pos rfl, Literal.listed?_lined (.inr rfl) hread
    (by simp only [List.length_append]; omega), Option.map_some, Fields.ofList_eq_self h]

/-! ### The tools -/

section Tools

variable {document : Document} {tools : List Tool} {baseUrl : Text} {timeout : Seconds}
  {c : Content}

/-- The records are those of the index, in its order. -/
theorem records_of_content (h : content document tools baseUrl timeout = .ok c) :
    records c = (index tools).map fun f ↦ (f.1, f.2.toRecord) := by
  have htools := (functions_of_content h).1
  have hids : (index tools).values.map (fun tool ↦ (tool.id, tool.toRecord)) =
      (index tools).map fun f ↦ (f.1, f.2.toRecord) := by
    rw [Fields.values, List.map_map]
    exact List.map_congr_left fun f hf ↦ by rw [Function.comp_apply, ← (Catalog.mem_index hf).2]
  rw [← hids, ← htools, records, List.map_map]
  rfl

/-- The records of a table have distinct names. -/
theorem distinct_records (h : content document tools baseUrl timeout = .ok c) :
    (records c).Distinct := by
  have hnames : (records c).names = (index tools).names := by
    rw [records_of_content h, Fields.names, Fields.names, List.map_map]
    rfl
  rw [Fields.Distinct, hnames]
  exact Fields.distinct_ofList _

/-- Records of tools describe the tools. -/
theorem toolsOf_map (tools : Fields Tool) :
    toolsOf (tools.map fun f ↦ (f.1, f.2.toRecord)) = .ok tools := by
  refine Outcome.mapM_map_ok (fun f ↦ ?_) tools
  rw [toolOf, Tool.ofRecord_toRecord]
  rfl

/-- A project says something exactly if all parameters of the index have annotations. -/
theorem exists_content_iff (document : Document) (tools : List Tool) (baseUrl : Text)
    (timeout : Seconds) : (∃ c, content document tools baseUrl timeout = .ok c) ↔
      ∀ tool ∈ (index tools).values, ∀ p ∈ tool.parameters, p.IsTyped := by
  rw [← exists_functionsFrom_iff _ [], ← functions]
  simp only [content, Outcome.bind_ok_iff]
  constructor
  · rintro ⟨_, functions, hfunctions, _⟩
    exact ⟨functions, hfunctions⟩
  · rintro ⟨functions, hfunctions⟩
    exact ⟨_, functions, hfunctions, rfl⟩

/-- The source before the table is the same for all tools. -/
theorem exists_source_before (document : Document) (baseUrl : Text) (timeout : Seconds) :
    ∃ before, ∀ tools c, content document tools baseUrl timeout = .ok c →
      serverHead c ++ serverSettings c = before := by
  obtain ⟨blank, hblank⟩ := (exists_content_iff document [] baseUrl timeout).mpr nofun
  refine ⟨serverHead blank ++ serverSettings blank, fun tools c h ↦ ?_⟩
  rw [content] at h hblank
  obtain ⟨functions, _, h⟩ := Outcome.bind_ok_iff.mp h
  obtain ⟨none, _, hblank⟩ := Outcome.bind_ok_iff.mp hblank
  cases h
  cases hblank
  rfl

end Tools

/-- The source before the table of a server does not depend on its tools. There is a server for all
tools whose parameters are of known types or restricted to texts. Its table is read as records that
describe exactly the tools of the index, in its order and under its names, and reading the table
ends where the source of the template goes on, whatever that is. -/
theorem tools_read_back (document : Document) (baseUrl : Text) (timeout : Seconds) :
    ∃ before, ∀ tools : List Tool,
      ((∃ c, content document tools baseUrl timeout = .ok c) ↔
        ∀ tool ∈ (index tools).values, ∀ p ∈ tool.parameters, p.IsTyped) ∧
      ∀ c, content document tools baseUrl timeout = .ok c →
        serverFile c = before ++ (definitions c ++
          (callFunction ++ (c.functions.flatMap toolFunction ++ serverTail))) ∧
        ∀ behind, ∃ records,
          definitions? (definitions c ++ behind) = some (records, "\n" ++ behind) ∧
            toolsOf records = .ok (index tools) := by
  obtain ⟨before, hbefore⟩ := exists_source_before document baseUrl timeout
  refine ⟨before, fun tools ↦ ⟨exists_content_iff document tools baseUrl timeout, ?_⟩⟩
  intro c hc
  constructor
  · rw [← hbefore tools c hc, serverFile]
    simp only [List.append_assoc]
  · intro behind
    refine ⟨records c, definitions?_definitions (distinct_records hc) behind, ?_⟩
    rw [records_of_content hc]
    exact toolsOf_map (index tools)

/-- A document with one operation, which takes a body and a parameter named like it. -/
def notes : Document where
  version := "3.0.0"
  info := ⟨"Notes", "1", none⟩
  servers := [⟨"https://h", []⟩]
  paths := [("/notes/{id}", ⟨[], [("POST", {
    operationId := none
    summary := none
    description := none
    tags := []
    parameters := [⟨"body", "query", false, none, none⟩,
      ⟨"id", "path", true, none, some ⟨.string "integer", none, none⟩⟩]
    requestBody := some ⟨none, true,
      [("application/json", some ⟨some ⟨.string "object", none, none⟩⟩)]⟩ })]⟩)]
  components := []

/-- A tool whose texts hold quotes, backslashes, braces, a line end and half of a surrogate pair,
with no restriction and with an empty one. -/
def quotedTool : Tool where
  id := "it's \"quoted\""
  description := "'''\\\n\x7b\x7b x \x7d\x7d\"\"\""
  path := "/é"
  method := "GET"
  parameters := [⟨"a'", "a_", "query", true, "object", some ["\\", "'\""], none⟩,
    ⟨"b", "b", "query", false, "string", some [], some [⟨0xD800, by decide⟩]⟩,
    ⟨"c", "c", "query", false, "string", none, some []⟩]

/-- It is read back. -/
theorem tools_read_back_quoted : ∃ c, content notes [quotedTool] [] (.whole 30) = .ok c ∧
    ∃ records, definitions? (definitions c ++ "def") = some (records, ("\n" : Text) ++ "def") ∧
      toolsOf records = .ok [(quotedTool.id, quotedTool)] := by
  obtain ⟨_, hread⟩ := tools_read_back notes [] (.whole 30)
  obtain ⟨hsome, hall⟩ := hread [quotedTool]
  have htyped : ∀ tool ∈ (index [quotedTool]).values, ∀ p ∈ tool.parameters, p.IsTyped := by
    intro tool htool p hp
    have hindex : (index [quotedTool]).values = [quotedTool] := rfl
    rw [hindex, List.mem_singleton] at htool
    rw [htool] at hp
    simp only [quotedTool, List.mem_cons, List.not_mem_nil, or_false] at hp
    rcases hp with rfl | rfl | rfl
    · exact .inr ⟨_, _, rfl⟩
    · exact .inl (by decide)
    · exact .inl (by decide)
  obtain ⟨c, hc⟩ := hsome.mpr htyped
  obtain ⟨_, htable⟩ := hall c hc
  exact ⟨c, hc, htable "def"⟩

end Emission

end ApiTools
