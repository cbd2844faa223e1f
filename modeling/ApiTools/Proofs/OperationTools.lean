import Mathlib.Data.List.Nodup
import ApiTools.Proofs.DeclaredOperations
import ApiTools.Proofs.DistinctNames

/-!
# One tool for each operation

The catalog of a document has one tool for each place at which the document declares an operation,
and no other tools, ordered by path and by the first key of each method. A tool has the content of
the last object of its method, and takes a body when one of its forms has a schema
(`build_covers`).
-/

namespace ApiTools

open List (Forall₂)

namespace Fields

variable {α : Type}

/-- What a name gets is the value of its first field. -/
theorem get?_eq_some_iff_first {fields : Fields α} {name : Text} {value : α} :
    fields.get? name = some value ↔
      ∃ before after : Fields α, fields = before ++ (name, value) :: after ∧
        name ∉ before.names := by
  constructor
  · intro h
    induction fields with
    | nil => cases h
    | cons f rest ih =>
      rw [get?_cons] at h
      split at h
      · next hname =>
        cases h
        exact ⟨[], rest, by rw [← hname]; rfl, List.not_mem_nil⟩
      · next hname =>
        obtain ⟨before, after, hrest, hbefore⟩ := ih h
        refine ⟨f :: before, after, by rw [hrest]; rfl, ?_⟩
        show name ∉ f.1 :: before.names
        exact List.not_mem_cons_of_ne_of_not_mem (Ne.symm hname) hbefore
  · rintro ⟨before, after, hfields, hbefore⟩
    rw [hfields, get?_append, (get?_eq_none_iff before name).mpr hbefore, Option.none_or, get?_cons,
      if_pos rfl]

/-- What settings leave are the last ones of their names. -/
theorem mem_ofList_iff {settings : Fields α} {name : Text} {value : α} :
    (name, value) ∈ ofList settings ↔
      ∃ before after : Fields α, settings = before ++ (name, value) :: after ∧
        name ∉ after.names := by
  -- What is left of settings is what comes first when they are read from behind.
  rw [← get?_eq_some_iff (distinct_ofList settings), get?_ofList, get?_eq_some_iff_first]
  have hnames : ∀ others : Fields α, name ∉ names others.reverse ↔ name ∉ others.names := by
    intro others
    rw [names, List.map_reverse, List.mem_reverse]
    rfl
  constructor
  · rintro ⟨before, after, hreverse, hbefore⟩
    refine ⟨after.reverse, before.reverse, ?_, (hnames before).mpr hbefore⟩
    have hsettings := congrArg List.reverse hreverse
    rw [List.reverse_reverse] at hsettings
    rw [hsettings]
    simp
  · rintro ⟨before, after, rfl, hafter⟩
    exact ⟨after.reverse, before.reverse, by simp, (hnames after).mpr hafter⟩

end Fields

namespace Document

/-- A document declares an operation at a path: an object at a key that names the method. -/
def DeclaresAt (spec : Json) (path method : Text) : Prop :=
  ∃ (paths item object : Fields Json) (key : Text), spec.field? "paths" = some (.object paths) ∧
    (path, Value.object item) ∈ paths ∧ (key, Value.object object) ∈ item ∧
    Spec.isMethod key = true ∧ key.toUpper = method

/-- The places of the operations that a document declares: the paths in order, and for each of them
the methods in the order of their first keys. -/
def declaredPlaces (spec : Json) : List (Text × Text) :=
  (pathItems spec).flatMap fun (path, item) ↦
    (methodObjects item).names.eraseDups.map fun method ↦ (path, method)

/-- An operation takes a body: its body is no reference, and one of its forms is an object with a
schema. -/
def TakesBody (object : Fields Json) : Prop :=
  ∃ (body content media : Fields Json) (type : Text) (schema : Schema),
    object.get? "requestBody" = some (.object body) ∧ body.has "$ref" = false ∧
    body.get? "content" = some (.object content) ∧ (type, Value.object media) ∈ content ∧
    readMediaType (.object media) = .ok ⟨some schema⟩

namespace DeclaredOperation

/-- An operation of a document that has the last of the objects for its method. -/
structure IsDeclaredBy (spec : Json) (o : DeclaredOperation) : Prop where
  item : ∃ paths : Fields Json, spec.field? "paths" = some (.object paths) ∧
    (o.path, Value.object o.item) ∈ paths
  last : ∃ before after, methodObjects o.item = before ++ (o.method, o.object) :: after ∧
    o.method ∉ Fields.names after

end DeclaredOperation

section Places

variable {spec : Json} {path method : Text}

private theorem mem_pathItems_iff {item : Fields Json} :
    (path, item) ∈ pathItems spec ↔ ∃ paths : Fields Json,
      spec.field? "paths" = some (.object paths) ∧ (path, Value.object item) ∈ paths := by
  unfold pathItems
  split
  · next paths hpaths =>
    rw [mem_objects_iff, hpaths]
    simp
  · next hpaths =>
    refine iff_of_false List.not_mem_nil ?_
    rintro ⟨paths, hobject, -⟩
    exact hpaths paths hobject

private theorem mem_declaredOperations_iff {o : DeclaredOperation} :
    o ∈ declaredOperations spec ↔ o.IsDeclaredBy spec := by
  unfold declaredOperations
  simp only [List.mem_flatMap, List.mem_map, Prod.exists]
  constructor
  · rintro ⟨path, item, hitem, method, object, hobject, rfl⟩
    exact ⟨mem_pathItems_iff.mp hitem, Fields.mem_ofList_iff.mp hobject⟩
  · rintro ⟨hitem, hlast⟩
    exact ⟨o.path, o.item, mem_pathItems_iff.mpr hitem, o.method, o.object,
      Fields.mem_ofList_iff.mpr hlast, rfl⟩

private theorem map_declaredOperations (spec : Json) :
    ((declaredOperations spec).map fun o ↦ (o.path, o.method)) = declaredPlaces spec := by
  unfold declaredOperations declaredPlaces
  rw [List.map_flatMap]
  congr 1
  funext ⟨path, item⟩
  dsimp only
  rw [← Fields.names_ofList, Fields.names, List.map_map, List.map_map]
  rfl

private theorem mem_declaredPlaces_iff :
    (path, method) ∈ declaredPlaces spec ↔ DeclaresAt spec path method := by
  unfold declaredPlaces
  simp only [List.mem_flatMap, List.mem_map, List.mem_eraseDups, Prod.exists, Prod.mk.injEq,
    Fields.names]
  constructor
  · rintro ⟨_, item, hitem, _, ⟨_, object, hobject, rfl⟩, rfl, rfl⟩
    obtain ⟨paths, hpaths, hmem⟩ := mem_pathItems_iff.mp hitem
    obtain ⟨key, hkey, hmethod, hupper⟩ := mem_methodObjects_iff.mp hobject
    exact ⟨paths, item, object, key, hpaths, hmem, hkey, hmethod, hupper⟩
  · rintro ⟨paths, item, object, key, hpaths, hmem, hkey, hmethod, hupper⟩
    exact ⟨path, item, mem_pathItems_iff.mpr ⟨paths, hpaths, hmem⟩, method,
      ⟨method, object, mem_methodObjects_iff.mpr ⟨key, hkey, hmethod, hupper⟩, rfl⟩, rfl, rfl⟩

/-- A document of distinct names declares its operations at distinct places. -/
theorem nodup_declaredPlaces (h : spec.DistinctNames) : (declaredPlaces spec).Nodup := by
  have hpaths : Fields.Distinct (pathItems spec) := by
    unfold pathItems
    split
    · next paths hpaths =>
      obtain ⟨fields, hfields, hget⟩ := Option.bind_eq_some_iff.mp hpaths
      cases spec with
      | object =>
        cases hfields
        have hvalue := (Value.distinctNames_object_iff.mp h).2 _ (Fields.mem_of_get? hget)
        exact (names_objects_sublist paths).nodup (Value.distinctNames_object_iff.mp hvalue).1
      | _ => cases hfields
    · exact List.nodup_nil
  refine List.nodup_flatMap.mpr ⟨?_, ?_⟩
  · rintro ⟨path, item⟩ -
    dsimp only
    rw [← Fields.names_ofList]
    exact (Fields.distinct_ofList _).map fun _ _ hsame ↦ (Prod.mk.inj hsame).2
  · refine (List.pairwise_map.mp hpaths).imp fun hne ↦ ?_
    intro place hfirst hsecond
    obtain ⟨_, -, rfl⟩ := List.mem_map.mp hfirst
    obtain ⟨_, -, hsame⟩ := List.mem_map.mp hsecond
    exact hne (Prod.mk.inj hsame).1.symm

end Places

section Body

variable {object : Fields Json}

/-- What is not null where it is missing is there. -/
theorem getD_null_eq_object_iff {v : Option Json} {fields : Fields Json} :
    v.getD .null = .object fields ↔ v = some (.object fields) := by
  cases v with
  | none => exact iff_of_false nofun nofun
  | some w => rw [Option.getD_some, Option.some.injEq]

/-- A body that is read from an entry is that of an object with its content, cleared of what is no
object. -/
theorem requestBody_of_bodyEntry {v body : Json} {read : Option RequestBody}
    (hbody : bodyEntry v = .ok body)
    (hread : Lenient.optional readRequestBody body = .ok read) :
    (read = none ∧ ∀ fields : Fields Json, v = .object fields → fields.has "$ref" = true) ∨
      ∃ (fields content : Fields Json) (requestBody : RequestBody), v = .object fields ∧
        fields.has "$ref" = false ∧
        contentEntries ((fields.get? "content").getD .null) = .ok content ∧
        Forall₂ (fun f g ↦ f.1 = g.1 ∧ Lenient.optional readMediaType f.2 = .ok g.2) content
          requestBody.content ∧ read = some requestBody := by
  have hnone : body = .null → read = none := by
    rintro rfl
    cases hread
    rfl
  unfold bodyEntry at hbody
  split at hbody
  · next fields =>
    split at hbody
    · next href =>
      cases hbody
      refine .inl ⟨hnone rfl, ?_⟩
      rintro _ ⟨⟩
      exact href
    · next href =>
      obtain ⟨content, hcontent, hobject⟩ := Outcome.bind_ok_iff.mp hbody
      cases hobject
      rcases Lenient.optional_ok_iff.mp hread with ⟨hnull, -⟩ | ⟨-, requestBody, hrequest, hsome⟩
      · cases hnull
      · have hforms := readRequestBody_ok hrequest
        rw [field_of_get? (Fields.get?_set _ _ _ _), readFields_ok_iff] at hforms
        obtain ⟨_, hsame, hforms⟩ := hforms
        cases hsame
        exact .inr ⟨fields, content, requestBody, rfl, eq_false_of_ne_true href, hcontent, hforms,
          hsome⟩
  · next hobject =>
    cases hbody
    refine .inl ⟨hnone rfl, ?_⟩
    rintro fields rfl
    exact absurd rfl (hobject fields)

/-- The objects of a content are those of its entry. -/
theorem mem_contentEntries_iff {v : Json} {content media : Fields Json} {type : Text}
    (h : contentEntries v = .ok content) :
    (type, Value.object media) ∈ content ↔
      ∃ fields : Fields Json, v = .object fields ∧ (type, Value.object media) ∈ fields := by
  unfold contentEntries at h
  split at h
  · next hblank =>
    cases h
    refine iff_of_false List.not_mem_nil ?_
    rintro ⟨fields, rfl, hmem⟩
    rw [List.isEmpty_iff.mp hblank] at hmem
    cases hmem
  · split at h
    · next fields =>
      cases h
      constructor
      · intro hmem
        obtain ⟨⟨other, v⟩, hentry, hcleared⟩ := List.mem_map.mp hmem
        cases v with
        | object =>
          cases hcleared
          exact ⟨_, rfl, hentry⟩
        | _ => cases hcleared
      · rintro ⟨_, hsame, hmem⟩
        cases hsame
        exact List.mem_map.mpr ⟨_, hmem, rfl⟩
    · cases h

/-- A form with a schema is read from an object. -/
theorem optional_readMediaType_iff {v : Json} {schema : Schema} :
    Lenient.optional readMediaType v = .ok (some ⟨some schema⟩) ↔
      ∃ media : Fields Json, v = .object media ∧
        readMediaType (.object media) = .ok ⟨some schema⟩ := by
  rw [Lenient.optional_ok_iff]
  constructor
  · rintro (⟨-, hnone⟩ | ⟨-, _, hread, hsome⟩)
    · cases hnone
    · cases hsome
      obtain ⟨media, rfl, -⟩ := readObject_ok_iff.mp hread
      exact ⟨media, rfl, hread⟩
  · rintro ⟨media, rfl, hread⟩
    exact .inr ⟨nofun, _, hread, rfl⟩

end Body

end Document

namespace Catalog

open Document

private theorem hasSchema_iff {body : RequestBody} :
    hasSchema body = true ↔ ∃ g ∈ body.content, ∃ schema, g.2 = some ⟨some schema⟩ := by
  rw [hasSchema, List.any_eq_true]
  constructor
  · rintro ⟨form, hform, hschema⟩
    obtain ⟨g, hg, rfl⟩ := List.mem_map.mp hform
    split at hschema
    · next schema hsome => exact ⟨g, hg, schema, hsome⟩
    · cases hschema
  · rintro ⟨g, hg, schema, hsome⟩
    exact ⟨g.2, List.mem_map.mpr ⟨g, hg, rfl⟩, by rw [hsome]⟩

/-- The body of an operation is taken when its object has one with a schema. -/
theorem isSome_body?_iff {o : DeclaredOperation} {operation : Operation} (h : o.Builds operation) :
    (body? operation).isSome = true ↔ TakesBody o.object := by
  obtain ⟨merged, body, -, hbody, hoperation⟩ := buildOperation_ok_iff.mp h.built
  have hread := (readOperation_ok hoperation).2
  rw [field_of_get? (Fields.get?_set _ _ _ _)] at hread
  rcases requestBody_of_bodyEntry hbody hread with
    ⟨hnone, hreference⟩ | ⟨fields, content, requestBody, hfields, href, hcontent, hforms, hsome⟩
  · rw [body?, hnone]
    refine iff_of_false Bool.false_ne_true ?_
    rintro ⟨fields, _, _, _, _, hget, href, -⟩
    rw [hreference fields (getD_null_eq_object_iff.mpr hget)] at href
    cases href
  · have hget := getD_null_eq_object_iff.mp hfields
    have htaken : (body? operation).isSome = hasSchema requestBody := by
      rw [body?, hsome]
      dsimp only
      cases hasSchema requestBody <;> rfl
    have hform := exists_mem_congr
      (p := fun f ↦ ∃ schema, Lenient.optional readMediaType f.2 = .ok (some ⟨some schema⟩))
      (q := fun g ↦ ∃ schema, g.2 = some ⟨some schema⟩) hforms fun f g hfg ↦
        exists_congr fun schema ↦ by rw [hfg.2, Except.ok.injEq]
    rw [htaken, hasSchema_iff, ← hform]
    constructor
    · rintro ⟨⟨type, v⟩, hmem, schema, hform⟩
      obtain ⟨media, rfl, hmedia⟩ := optional_readMediaType_iff.mp hform
      obtain ⟨entries, hentries, hentry⟩ := (mem_contentEntries_iff hcontent).mp hmem
      exact ⟨fields, entries, media, type, schema, hget, href,
        getD_null_eq_object_iff.mp hentries, hentry, hmedia⟩
    · rintro ⟨others, entries, media, type, schema, hother, -, hentries, hentry, hmedia⟩
      rw [hget] at hother
      cases hother
      have hmem := (mem_contentEntries_iff hcontent).mpr
        ⟨entries, getD_null_eq_object_iff.mpr hentries, hentry⟩
      exact ⟨_, hmem, schema, optional_readMediaType_iff.mpr ⟨media, rfl, hmedia⟩⟩

/-- What a tool tells of the operation that it stands for. -/
structure StandsFor (tool : Tool) (o : DeclaredOperation) : Prop where
  path : tool.path = o.path
  method : tool.method = o.method
  content : o.HasTool tool
  id : tool.id = Identifier.ofOperation tool.path tool.method
  hasBody : tool.hasBody = true ↔ TakesBody o.object
  bodyRequired : tool.bodyRequired = true → tool.hasBody = true
  bodyDescription : tool.bodyDescription ≠ none ↔ tool.hasBody = true

private theorem standsFor_of_hasTool {o : DeclaredOperation} {tool : Tool} (h : o.HasTool tool) :
    StandsFor tool o := by
  obtain ⟨operation, hbuilds, rfl⟩ := h
  refine ⟨rfl, rfl, ⟨operation, hbuilds, rfl⟩, rfl, isSome_body?_iff hbuilds, ?_, ?_⟩
  · show ((body? operation).map (·.1)).getD false = true → (body? operation).isSome = true
    cases body? operation with
    | none => exact id
    | some _ => exact fun _ ↦ rfl
  · show (body? operation).map (·.2) ≠ none ↔ (body? operation).isSome = true
    cases body? operation with
    | none => simp
    | some _ => simp

/-- No operation is lost and none is invented: a document that has a model has a catalog with one
tool for each place at which an operation is declared, in the order of the declarations, and each
tool stands for the last object at its place. -/
theorem build_covers {spec : Json} {document : Document} (hspec : spec.DistinctNames)
    (h : (ofSpec spec).outcome = .ok document) :
    ∃ tools, (build false document).outcome = .ok tools ∧
      (∀ path method, (∃ tool ∈ tools, tool.path = path ∧ tool.method = method) ↔
        DeclaresAt spec path method) ∧
      (tools.map fun t ↦ (t.path, t.method)).Nodup ∧
      (tools.map fun t ↦ (t.path, t.method)) = declaredPlaces spec ∧
      ∀ tool ∈ tools, ∃ o : DeclaredOperation, o.IsDeclaredBy spec ∧ StandsFor tool o := by
  have hstand : Forall₂ (fun o tool ↦ StandsFor tool o) (declaredOperations spec)
      (ofDocument document) :=
    (forall₂_ofDocument h).imp fun _ _ ↦ standsFor_of_hasTool
  have hplaces : ((ofDocument document).map fun t ↦ (t.path, t.method)) = declaredPlaces spec := by
    rw [← map_declaredOperations, eq_comm, ← List.forall₂_eq_eq_eq, List.forall₂_map_left_iff,
      List.forall₂_map_right_iff]
    exact hstand.imp fun o tool ht ↦ by rw [ht.path, ht.method]
  refine ⟨ofDocument document, outcome_build_false document, ?_, ?_, hplaces, ?_⟩
  · intro path method
    rw [← mem_declaredPlaces_iff, ← hplaces]
    simp only [List.mem_map, Prod.mk.injEq]
  · rw [hplaces]
    exact nodup_declaredPlaces hspec
  · intro tool htool
    obtain ⟨o, ho, hto⟩ := exists_partner hstand htool
    exact ⟨o, mem_declaredOperations_iff.mp ho, hto⟩

/-- A document with a method twice, a path that is no object and a path with a body. -/
private def letterSpec : Json :=
  .object [("openapi", .string "3.0.0"), ("paths", .object [
    ("/a", .object [("Get", .object [("summary", .string "first")]), ("put", .bool true),
      ("summary", .object []), ("GET", .object [("summary", .string "last")])]),
    ("/b", .string "get"),
    ("/c", .object [("post", .object [("requestBody", .object [("content",
      .object [("text/plain", .null), ("application/json", .object [("schema",
        .object [("type", .string "object")])])])])])])])]

/-- One tool is made for two methods that differ in letter case, and none for what is no operation.
-/
theorem build_covers_letters : letterSpec.DistinctNames ∧
    ∃ document tools, (ofSpec letterSpec).outcome = .ok document ∧
      (build false document).outcome = .ok tools ∧
      (tools.map fun t ↦ (t.path, t.method)) =
        [(Text.ofString "/a", Text.ofString "GET"),
          (Text.ofString "/c", Text.ofString "POST")] := by
  have hdistinct : letterSpec.DistinctNames := by
    simp only [letterSpec, Value.distinctNames_object_iff, List.forall_mem_cons,
      List.not_mem_nil, false_imp_iff, implies_true, Value.DistinctNames.string,
      Value.DistinctNames.null, Value.DistinctNames.bool, and_true, true_and]
    decide
  have hread : (ofSpec letterSpec).outcome.isOk = true := by decide +kernel
  obtain ⟨document, h⟩ := Outcome.exists_of_isOk hread
  obtain ⟨tools, htools, -, -, hplaces, -⟩ := build_covers hdistinct h
  exact ⟨hdistinct, document, tools, h, htools, hplaces.trans (by decide +kernel)⟩

end Catalog

end ApiTools
