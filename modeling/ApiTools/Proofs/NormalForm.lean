import ApiTools.Proofs.Places

/-!
# What a normal document is free of

The schemas of a document are the values under its component schemas that properties and items lead
to, its parameter schemas those of the parameters of components, path items and operations. A normal
document has no version 3.1, no null union among either, and no schema with a field that no version
knows (`normalTree_invariant`). What counts as a schema is looked up in the normal document, so what
lifting brought in counts as well.
-/

namespace ApiTools

namespace Spec

open Schema (Node IsNullUnion liftNullUnion dropNonStandard nonStandardFields)

section Reached

/-- The values that stand in a document where schemas stand: under a component schema, at any chain
of properties and items. -/
inductive SchemaIn (spec : Fields Json) : Json → Prop where
  | component {components schemas : Fields Json} {name : Text} {v : Json} :
    (Text.ofString "components", .object components) ∈ spec →
    (Text.ofString "schemas", .object schemas) ∈ components → (name, v) ∈ schemas → SchemaIn spec v
  | property {node properties : Fields Json} {name : Text} {v : Json} :
    SchemaIn spec (.object node) → (Text.ofString "properties", .object properties) ∈ node →
    (name, v) ∈ properties → SchemaIn spec v
  | items {node : Fields Json} {v : Json} : SchemaIn spec (.object node) →
    (Text.ofString "items", v) ∈ node → SchemaIn spec v

/-- The values that stand in a document where parameters stand: in its components, in the list of a
path item and in the list of an operation. -/
inductive ParameterIn (spec : Fields Json) : Json → Prop where
  | component {components parameters : Fields Json} {name : Text} {v : Json} :
    (Text.ofString "components", .object components) ∈ spec →
    (Text.ofString "parameters", .object parameters) ∈ components → (name, v) ∈ parameters →
    ParameterIn spec v
  | pathItem {paths item : Fields Json} {path : Text} {parameters : List Json} {v : Json} :
    (Text.ofString "paths", .object paths) ∈ spec → (path, .object item) ∈ paths →
    (Text.ofString "parameters", .array parameters) ∈ item → v ∈ parameters → ParameterIn spec v
  | operation {paths item operation : Fields Json} {path key : Text} {parameters : List Json}
    {v : Json} : (Text.ofString "paths", .object paths) ∈ spec → (path, .object item) ∈ paths →
    isMethod key = true → (key, .object operation) ∈ item →
    (Text.ofString "parameters", .array parameters) ∈ operation → v ∈ parameters →
    ParameterIn spec v

/-- The values that stand in a document where the schema of a parameter stands. -/
def ParameterSchemaIn (spec : Fields Json) (v : Json) : Prop :=
  ∃ parameter, ParameterIn spec (.object parameter) ∧ (Text.ofString "schema", v) ∈ parameter

end Reached

namespace Place

variable {p : Place} {v : Json} {node : Fields Json}

/-- A value is in normal form as what stands at a place. -/
def IsNormal (p : Place) (v : Json) : Prop := p.normal v = v

private theorem isNormal_normal (p : Place) (v : Json) : p.IsNormal (p.normal v) := normal_normal p
    v

private theorem IsNormal.eq_mapNamed (h : p.IsNormal (.object node)) :
    node = (p.retouch node).mapNamed fun name ↦ (p.field name).normal := by
  rw [IsNormal, normal_object] at h
  exact (Value.object.inj h).symm

/-- An object in normal form has nothing to retouch. -/
theorem IsNormal.retouch (h : p.IsNormal (.object node)) : p.retouch node = node := by
  have hfixed := retouch_mapNamed_retouch p node
  rwa [← h.eq_mapNamed] at hfixed

/-- The fields of an object in normal form are in normal form. -/
theorem IsNormal.field (h : p.IsNormal (.object node)) {name : Text} (hv : (name, v) ∈ node) :
    (p.field name).IsNormal v := by
  rw [h.eq_mapNamed, Fields.mem_mapNamed] at hv
  obtain ⟨w, -, hw⟩ := hv
  have hfixed := isNormal_normal (p.field name) w
  rwa [hw] at hfixed

/-- The items of an array in normal form are in normal form. -/
theorem IsNormal.item {items : List Json} (h : p.IsNormal (.array items)) (hv : v ∈ items) :
    p.item.IsNormal v := by
  rw [IsNormal, normal_array] at h
  rw [← Value.array.inj h] at hv
  obtain ⟨w, -, rfl⟩ := List.mem_map.mp hv
  exact isNormal_normal _ w

/-- The version of a normal document does not start with 3.1. -/
theorem IsNormal.version (h : document.IsNormal (.object node)) {version : Text}
    (hversion : (Text.ofString "openapi", .string version) ∈ node) :
    Text.startsWith version "3.1" = false := by
  have hretouch := h.retouch
  rw [Place.retouch, Fields.adjust_eq_mapNamed] at hretouch
  rw [← hretouch, Fields.mem_mapNamed] at hversion
  obtain ⟨v, -, hv⟩ := hversion
  rw [if_pos rfl] at hv
  cases v with
  | string t =>
    rw [normalVersion] at hv
    split at hv
    · cases hv
      rfl
    · next ht =>
      cases hv
      exact Bool.eq_false_iff.mpr ht
  | _ => cases hv

/-- A schema in normal form has no field that no version knows. -/
theorem IsNormal.standard (h : schema.IsNormal (.object node)) :
    ∀ name ∈ nonStandardFields, name ∉ node.names := by
  intro name hname hmem
  have hretouch : dropNonStandard (liftNullUnion node) = node := h.retouch
  rw [← hretouch, Schema.names_dropNonStandard, List.mem_filter] at hmem
  simp [hname] at hmem

/-- A schema in normal form is no null union. -/
theorem IsNormal.not_isNullUnion (h : schema.IsNormal (.object node)) : ¬IsNullUnion node := by
  have hretouch : dropNonStandard (liftNullUnion node) = node := h.retouch
  have hany := @Schema.get?_dropNonStandard (liftNullUnion node) "anyOf" (by decide)
  rw [hretouch] at hany
  exact fun hunion ↦ Schema.not_isNullUnion_lift node ((Schema.isNullUnion_congr hany).mp hunion)

/-- The schema of a parameter in normal form is no null union. -/
theorem IsNormal.not_isNullUnion_parameterSchema (h : parameterSchema.IsNormal (.object node)) :
    ¬IsNullUnion node := by
  have hretouch : liftNullUnion node = node := h.retouch
  rw [← hretouch]
  exact Schema.not_isNullUnion_lift node

end Place

section Normal

variable {spec : Fields Json} {v : Json}

/-- The schemas of a normal document are in normal form. -/
theorem SchemaIn.isNormal (hspec : Place.document.IsNormal (.object spec)) (h : SchemaIn spec v) :
    Place.schema.IsNormal v := by
  induction h with
  | component hcomponents hschemas hv => exact ((hspec.field hcomponents).field hschemas).field hv
  | property _ hproperties hv ih => exact (ih.field hproperties).field hv
  | items _ hv ih => exact ih.field hv

/-- The parameters of a normal document are in normal form. -/
theorem ParameterIn.isNormal (hspec : Place.document.IsNormal (.object spec))
    (h : ParameterIn spec v) : Place.parameter.IsNormal v := by
  cases h with
  | component hcomponents hparameters hv =>
    exact ((hspec.field hcomponents).field hparameters).field hv
  | pathItem hpaths hitem hparameters hv =>
    exact (((hspec.field hpaths).field hitem).field hparameters).item hv
  | @operation _ _ _ _ key _ _ hpaths hitem hmethod hoperation hparameters hv =>
    have hkey : Place.pathItem.field key = .operation := by
      have hne : key ≠ "parameters" := by
        rintro rfl
        exact absurd hmethod (by decide)
      rw [Place.field, if_neg hne, if_pos hmethod]
    have hnormal := ((hspec.field hpaths).field hitem).field hoperation
    rw [show (Place.document.field "paths").field _ = .pathItem from rfl, hkey] at hnormal
    exact (hnormal.field hparameters).item hv

/-- A normal document has no version 3.1, no schema that is a null union or has a field that no
version knows, and no parameter schema that is a null union. -/
theorem normalTree_invariant (spec : Fields Json) :
    (∀ version, (Text.ofString "openapi", .string version) ∈ normalTree spec →
      Text.startsWith version "3.1" = false) ∧
    (∀ node, SchemaIn (normalTree spec) (.object node) → ¬IsNullUnion node) ∧
    (∀ node, SchemaIn (normalTree spec) (.object node) →
      Text.ofString "error_messages" ∉ Fields.names node ∧
        Text.ofString "hide_error_details" ∉ Fields.names node) ∧
    ∀ node, ParameterSchemaIn (normalTree spec) (.object node) → ¬IsNullUnion node := by
  have hspec : Place.document.IsNormal (.object (normalTree spec)) :=
    Place.isNormal_normal .document (.object spec)
  refine ⟨fun version h ↦ hspec.version h, fun node h ↦ (h.isNormal hspec).not_isNullUnion,
    fun node h ↦ ?_, fun node h ↦ ?_⟩
  · have hstandard := (h.isNormal hspec).standard
    exact ⟨hstandard _ (by decide), hstandard _ (by decide)⟩
  · obtain ⟨parameter, hparameter, hschema⟩ := h
    exact ((hparameter.isNormal hspec).field hschema).not_isNullUnion_parameterSchema

/-- A component schema that is a null union, and an operation with a parameter of that kind. The
lifted member of the schema has a null union with an unknown field among its properties. -/
private def liftedSpec : Fields Json :=
  [("openapi", .string "3.1.0"), ("components", .object [("schemas", .object [("A", .object
    [("anyOf", .array [.object [("type", .string "object"), ("properties", .object [("p", .object
      [("anyOf", .array [.object [("type", .string "null")], .object [("type", .string "string"),
        ("error_messages", .null)]])])])], .object [("type", .string "null")]])])])]),
    ("paths", .object [("/a", .object [("GET", .object [("parameters", .array [.object
      [("schema", .object [("anyOf", .array [.object [("type", .string "integer")],
        .object [("type", .string "null")]])])]])])])])]

/-- The property that lifting brought in, and the schema of the parameter. -/
private def liftedProperty : Fields Json := [("type", .string "string"), ("nullable", .bool true)]

private def liftedParameter : Fields Json := [("type", .string "integer"), ("nullable", .bool true)]

/-- A property and a parameter with null unions have none in the normal form. -/
theorem normalTree_invariant_lifted :
    (Text.ofString "openapi", .string "3.0.0") ∈ normalTree liftedSpec ∧
    Text.startsWith "3.0.0" "3.1" = false ∧
    SchemaIn (normalTree liftedSpec) (.object liftedProperty) ∧ ¬IsNullUnion liftedProperty ∧
    Text.ofString "error_messages" ∉ Fields.names liftedProperty ∧
    ParameterSchemaIn (normalTree liftedSpec) (.object liftedParameter) ∧
    ¬IsNullUnion liftedParameter := by
  have hsize : (Value.object liftedSpec : Json).size ≤ 40 := by decide +kernel
  have hwithin : Place.normalWithin 40 .document (.object liftedSpec) = .object
      [("openapi", .string "3.0.0"), ("components", .object [("schemas", .object [("A", .object
        [("type", .string "object"), ("properties", .object [("p", .object liftedProperty)]),
          ("nullable", .bool true)])])]),
        ("paths", .object [("/a", .object [("GET", .object [("parameters", .array [.object
          [("schema", .object liftedParameter)]])])])])] := by decide +kernel
  have hnormal := Value.object.inj ((Place.normalWithin_eq .document hsize).symm.trans hwithin)
  have hversion : (Text.ofString "openapi", Value.string "3.0.0") ∈ normalTree liftedSpec := by
    rw [hnormal]
    exact List.mem_cons_self
  have hschema : SchemaIn (normalTree liftedSpec) (.object liftedProperty) := by
    rw [hnormal]
    refine .property (.component (List.mem_cons_of_mem _ List.mem_cons_self) List.mem_cons_self
      List.mem_cons_self) (List.mem_cons_of_mem _ List.mem_cons_self) List.mem_cons_self
  have hparameter : ParameterSchemaIn (normalTree liftedSpec) (.object liftedParameter) := by
    rw [hnormal]
    exact ⟨_, .operation (List.mem_cons_of_mem _ (List.mem_cons_of_mem _ List.mem_cons_self))
      List.mem_cons_self (by decide) List.mem_cons_self List.mem_cons_self List.mem_cons_self,
      List.mem_cons_self⟩
  obtain ⟨hversions, hunion, hstandard, hparameters⟩ := normalTree_invariant liftedSpec
  exact ⟨hversion, hversions _ hversion, hschema, hunion _ hschema, (hstandard _ hschema).1,
    hparameter, hparameters _ hparameter⟩

end Normal

end Spec

end ApiTools
