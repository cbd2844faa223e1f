import ApiTools.Proofs.Collection
import ApiTools.Tool.Catalog

/-!
# Tools of catalogs

The parameters of a catalog's tools are of known types, the required ones first, and the index of a
catalog has its tools under their own identifiers.
-/

namespace ApiTools

namespace Catalog

variable {tools : List Tool} {tool : Tool}

/-- The type of a catalog's parameter is a known one. -/
theorem primitiveType_mem (schema : Option Document.Schema) :
    primitiveType schema ∈ primitiveTypes := by
  fun_cases primitiveType with
  | case1 _ _ _ h => exact h
  | case2 => decide
  | case3 => decide

/-- The parameters of a catalog's tool are those of an operation. -/
theorem exists_operation (document : Document) (h : tool ∈ ofDocument document) :
    ∃ path method operation, tool = Catalog.tool path method operation := by
  obtain ⟨⟨path, item⟩, _, h⟩ := List.mem_flatMap.mp h
  obtain ⟨⟨method, operation⟩, _, rfl⟩ := List.mem_map.mp h
  exact ⟨path, method.toUpper, operation, rfl⟩

/-- The required parameters of an operation's tool come first. -/
theorem requiredFirst_tool (path method : Text) (operation : Document.Operation) :
    RequiredFirst (Catalog.tool path method operation).parameters :=
  pairwise_filter_append Parameter.required _

/-- The required parameters of a catalog's tool come first. -/
theorem requiredFirst {document : Document} (h : tool ∈ ofDocument document) :
    RequiredFirst tool.parameters := by
  obtain ⟨path, method, operation, rfl⟩ := exists_operation document h
  exact requiredFirst_tool path method operation

/-- The parameters of a catalog's tool have slots. -/
theorem slotTypes {document : Document} (h : tool ∈ ofDocument document) {p : Parameter}
    (hp : p ∈ tool.parameters) : ∃ type, SlotType.ofParameter p = .ok type := by
  obtain ⟨path, method, operation, rfl⟩ := exists_operation document h
  have hmem : p ∈ operation.parameters.filterMap parameter? := by
    rcases List.mem_append.mp hp with hp | hp
    · exact (List.mem_filter.mp hp).1
    · exact (List.mem_filter.mp hp).1
  obtain ⟨declared, _, hdeclared⟩ := List.mem_filterMap.mp hmem
  rw [parameter?] at hdeclared
  split at hdeclared
  · cases hdeclared
    exact (Parameter.exists_slotType_iff _).mpr (primitiveType_mem declared.schema)
  · cases hdeclared

/-- The tools of an index are tools of the catalog, each under its own identifier. -/
theorem mem_index {f : Text × Tool} (h : f ∈ index tools) : f.2 ∈ tools ∧ f.1 = f.2.id := by
  obtain ⟨tool, htool, rfl⟩ := List.mem_map.mp (Fields.mem_of_mem_ofList h)
  exact ⟨htool, rfl⟩

/-- The tools of an index are tools of the catalog. -/
theorem mem_of_mem_values {tools : List Tool} {tool : Tool} (h : tool ∈ (index tools).values) :
    tool ∈ tools := by
  obtain ⟨f, hf, rfl⟩ := List.mem_map.mp h
  exact (mem_index hf).1

/-- The names of an index are the identifiers of its tools. -/
theorem ids_index (tools : List Tool) :
    (index tools).values.map (·.id) = (index tools).names := by
  rw [Fields.values, Fields.names, List.map_map]
  exact List.map_congr_left fun f hf ↦ (mem_index hf).2.symm

/-- The tools of an index have distinct identifiers. -/
theorem ids_nodup (tools : List Tool) : ((index tools).values.map (·.id)).Nodup := by
  rw [ids_index]
  exact Fields.distinct_ofList _

end Catalog

end ApiTools
