import ApiTools.Proofs.Correspondence
import ApiTools.Proofs.Places
import ApiTools.Proofs.ReadDocuments
import ApiTools.Tool.Catalog

/-!
# Null unions of parameters do not show in the catalog

Where the schema of a parameter of a path item or an operation is nothing but a null union, the
catalog of the normal document is the same as with the other member in its place
(`build_unwrapped`). Normalizing leaves the two schemas apart in `nullable` alone, which no part of
reading a document looks at.
-/

namespace ApiTools

open List (Forall₂)
open Fields (Corresponds OnlyAt)
open Value (SameOrObjects SameOrArrays)

namespace Spec

/-- The first schema has an `anyOf` alone and is a null union of the second one, which is an object
without `anyOf`. -/
def IsBareUnionOf (v w : Json) : Prop :=
  ∃ (null main : Fields Json) (t : Text), Schema.HasType null "null" ∧ Schema.HasType main t ∧
    t ≠ "null" ∧ main.Distinct ∧ main.get? "anyOf" = none ∧ w = .object main ∧
    (v = .object [("anyOf", .array [.object null, .object main])] ∨
      v = .object [("anyOf", .array [.object main, .object null])])

/-- Schemas that are the same up to what they say about null. -/
def UpToNullable (v w : Json) : Prop :=
  v = w ∨ ∃ node other : Fields Json, v = .object node ∧ w = .object other ∧
    ∀ name ≠ Text.ofString "nullable", node.get? name = other.get? name

section Documents

variable (S : Json → Json → Prop)

/-- Parameters that are the same up to related schemas. -/
def ParameterUpTo : Json → Json → Prop := SameOrObjects (OnlyAt "schema" S)

/-- Lists of parameters that are the same up to related schemas. -/
def ParametersUpTo : Json → Json → Prop := SameOrArrays (ParameterUpTo S)

/-- Operations that are the same up to related schemas of their parameters. -/
def OperationUpTo : Json → Json → Prop := SameOrObjects (OnlyAt "parameters" (ParametersUpTo S))

/-- Fields of path items that are the same up to related schemas of parameters. -/
def PathItemFieldUpTo (name : Text) (v w : Json) : Prop :=
  OnlyAt "parameters" (ParametersUpTo S) name v w ∨ (isMethod name = true ∧ OperationUpTo S v w)

/-- Path items that are the same up to related schemas of parameters. -/
def PathItemUpTo : Json → Json → Prop := SameOrObjects (PathItemFieldUpTo S)

/-- Documents that are the same up to related schemas of the parameters of path items and
operations. -/
def DocumentUpTo (spec other : Fields Json) : Prop :=
  Corresponds (OnlyAt "paths" (SameOrObjects fun _ ↦ PathItemUpTo S)) spec other

end Documents

section Normal

/-- Lifting a null union that is nothing else gives its other member up to `nullable`. -/
theorem IsBareUnionOf.normal {v w : Json} (h : IsBareUnionOf v w) :
    UpToNullable (Place.parameterSchema.normal v) (Place.parameterSchema.normal w) := by
  obtain ⟨null, main, t, hnull, hmain, hne, hdistinct, hany, rfl, hv⟩ := h
  have hfixed : Place.parameterSchema.normal (.object main) = .object main := by
    have hunion := Schema.not_isNullUnion_of_get?_eq_none hany
    exact congrArg Value.object (Schema.lift_of_not_isNullUnion hunion)
  have hlift : ∀ members, (members = [.object null, .object main] ∨
      members = [.object main, .object null]) → UpToNullable
      (Place.parameterSchema.normal (.object [("anyOf", .array members)])) (.object main) := by
    intro members hmembers
    have hunion : Schema.IsUnionOf [("anyOf", .array members)] main := by
      refine ⟨null, t, hnull, hmain, hne, ?_⟩
      rcases hmembers with rfl | rfl
      · exact .inl rfl
      · exact .inr rfl
    refine .inr ⟨_, _, rfl, rfl, fun name hname ↦ ?_⟩
    rw [Schema.lift_of_isUnionOf hunion, Fields.get?_erase]
    split
    · next hanyname => rw [← hanyname, hany]
    · next hanyname =>
      have hperm := Fields.get?_perm (List.reverse_perm main) hdistinct name
      rw [Fields.get?_set, if_neg (Ne.symm hname), Fields.get?_update, hperm, Fields.get?_cons,
        if_neg hanyname, Fields.get?_nil, Option.or_none]
  rw [hfixed]
  rcases hv with rfl | rfl
  · exact hlift _ (.inl rfl)
  · exact hlift _ (.inr rfl)

variable {p : Place} {R R' : Text → Json → Json → Prop} {v w : Json}

/-- Objects that correspond do so in normal form, if it relates their fields. -/
private theorem sameOrObjects_normal (hretouch : ∀ node, p.retouch node = node)
    (hR : ∀ name v w, R name v w → R' name ((p.field name).normal v) ((p.field name).normal w))
    (h : SameOrObjects R v w) : SameOrObjects R' (p.normal v) (p.normal w) := by
  rcases h with rfl | ⟨fields, others, rfl, rfl, h⟩
  · exact .inl rfl
  · refine .inr ⟨_, _, Place.normal_object p fields, Place.normal_object p others, ?_⟩
    rw [hretouch, hretouch]
    exact h.mapNamed hR

private theorem onlyAt_normal {S S' : Json → Json → Prop} {name : Text}
    (hS : ∀ v w, S v w → S' ((p.field name).normal v) ((p.field name).normal w)) (other : Text)
    (v w : Json) (h : OnlyAt name S other v w) :
    OnlyAt name S' other ((p.field other).normal v) ((p.field other).normal w) := by
  rcases h with rfl | ⟨rfl, h⟩
  · exact .inl rfl
  · exact .inr ⟨rfl, hS v w h⟩

private theorem parametersUpTo_normal (v w : Json) (h : ParametersUpTo IsBareUnionOf v w) :
    ParametersUpTo UpToNullable (Place.parameterList.normal v) (Place.parameterList.normal w) := by
  rcases h with rfl | ⟨items, others, rfl, rfl, h⟩
  · exact .inl rfl
  · refine .inr ⟨_, _, Place.normal_array _ items, Place.normal_array _ others, ?_⟩
    rw [List.forall₂_map_left_iff, List.forall₂_map_right_iff]
    refine h.imp fun v w hparameter ↦ ?_
    exact sameOrObjects_normal (p := .parameter) (fun _ ↦ rfl)
      (onlyAt_normal fun _ _ ↦ IsBareUnionOf.normal) hparameter

private theorem operationUpTo_normal (v w : Json) (h : OperationUpTo IsBareUnionOf v w) :
    OperationUpTo UpToNullable (Place.operation.normal v) (Place.operation.normal w) :=
  sameOrObjects_normal (p := .operation) (fun _ ↦ rfl) (onlyAt_normal parametersUpTo_normal) h

private theorem pathItemUpTo_normal (v w : Json) (h : PathItemUpTo IsBareUnionOf v w) :
    PathItemUpTo UpToNullable (Place.pathItem.normal v) (Place.pathItem.normal w) := by
  refine sameOrObjects_normal (p := .pathItem) (fun _ ↦ rfl) (fun name v w h ↦ ?_) h
  rcases h with h | ⟨hmethod, h⟩
  · exact .inl (onlyAt_normal (p := .pathItem) parametersUpTo_normal name v w h)
  · have hname : name ≠ "parameters" := by
      rintro rfl
      exact absurd hmethod (by decide)
    have hfield : Place.pathItem.field name = .operation := by
      rw [Place.field, if_neg hname, if_pos hmethod]
    rw [hfield]
    exact .inr ⟨hmethod, operationUpTo_normal v w h⟩

/-- Null unions in place of their other members make normal documents differ in `nullable` alone. -/
theorem documentUpTo_normalTree {spec other : Fields Json}
    (h : DocumentUpTo IsBareUnionOf spec other) :
    DocumentUpTo UpToNullable (normalTree spec) (normalTree other) := by
  have hnormal : ∀ node, normalTree node = Fields.mapNamed (fun name v ↦
      (Place.document.field name).normal (if name = "openapi" then normalVersion v else v)) node :=
    fun node ↦ by
      rw [Value.object.inj (Place.normal_object .document node), Place.retouch,
        Fields.adjust_eq_mapNamed, Fields.mapNamed_mapNamed]
  rw [hnormal, hnormal]
  refine Corresponds.mapNamed h fun name v w h ↦ ?_
  rcases h with rfl | ⟨rfl, h⟩
  · exact .inl rfl
  · refine .inr ⟨rfl, ?_⟩
    exact sameOrObjects_normal (p := .paths) (fun _ ↦ rfl) (fun _ ↦ pathItemUpTo_normal) h

end Normal

end Spec

namespace Document

open Outcome (Agree)
open Spec (UpToNullable ParameterUpTo ParametersUpTo OperationUpTo PathItemUpTo PathItemFieldUpTo
  DocumentUpTo)

section Fields

variable {α : Type} {fields others : Fields Json}

private theorem present?_congr {names : List Text}
    (h : ∀ name ∈ names, fields.get? name = others.get? name) :
    present? fields names = present? others names := by
  induction names with
  | nil => rfl
  | cons name rest ih =>
    rw [present?, present?, h name List.mem_cons_self,
      ih fun other hother ↦ h other (List.mem_cons_of_mem name hother)]

/-- A field is read from the values of its names alone. -/
theorem field_congr {names : List Text} (h : ∀ name ∈ names, fields.get? name = others.get? name)
    (default : α) (read : Json → Checked α) :
    field fields names default read = field others names default read := by
  rw [field, field, present?_congr h]

/-- Fields that are not those of the one changed name are read the same. -/
theorem field_of_notMem {name : Text} {names : List Text} {S : Json → Json → Prop}
    (h : Corresponds (OnlyAt name S) fields others) (hnames : name ∉ names) (default : α)
    (read : Json → Checked α) :
    field fields names default read = field others names default read :=
  field_congr (fun _ hother ↦ h.get?_of_ne (ne_of_mem_of_not_mem hother hnames)) default read

private theorem required_of_notMem {name first : Text} {aliases : List Text}
    {S : Json → Json → Prop}
    (h : Corresponds (OnlyAt name S) fields others) (hnames : name ∉ first :: aliases)
    (read : Json → Checked α) :
    required fields first aliases read = required others first aliases read := by
  have hsame : ∀ other ∈ first :: aliases, fields.get? other = others.get? other :=
    fun _ hother ↦ h.get?_of_ne (ne_of_mem_of_not_mem hother hnames)
  rw [required, required, present?_congr hsame]

/-- The changed name is read the same, if its values are. -/
theorem field_of_onlyAt {name : Text} {aliases : List Text} {S : Json → Json → Prop}
    (h : Corresponds (OnlyAt name S) fields others) (haliases : name ∉ aliases) (default : α)
    {read : Json → Checked α} (hread : ∀ v w, S v w → read v = read w) :
    field fields (name :: aliases) default read = field others (name :: aliases) default read := by
  have hrest : present? fields aliases = present? others aliases :=
    present?_congr fun _ hother ↦ h.get?_of_ne (ne_of_mem_of_not_mem hother haliases)
  unfold field present?
  rw [hrest]
  rcases h.get?_cases name with ⟨hfield, hother⟩ | ⟨v, w, hfield, hother, rfl | ⟨-, hvalue⟩⟩
  · rw [hfield, hother]
  · rw [hfield, hother]
  · rw [hfield, hother]
    dsimp only
    rw [hread v w hvalue]

end Fields

section Parameters

private theorem readSchema_upToNullable {v w : Json} (h : UpToNullable v w) :
    Lenient.optional readSchema v = Lenient.optional readSchema w := by
  rcases h with rfl | ⟨node, other, rfl, rfl, h⟩
  · rfl
  · have htype : node.get? "type" = other.get? "type" := h _ (by decide)
    have henum : ∀ name ∈ [Text.ofString "enum"], node.get? name = other.get? name :=
      fun name hname ↦ h name (by rw [List.mem_singleton.mp hname]; decide)
    have href : ∀ name ∈ [Text.ofString "$ref", Text.ofString "ref"],
        node.get? name = other.get? name := fun name hname ↦ h name (by
      revert name
      decide)
    have hclean : (Text.ofString "nullable").IsClean := by decide
    have hnames : node.hasSurrogateName = other.hasSurrogateName :=
      Fields.hasSurrogateName_congr fun name hname ↦ by
        rw [Fields.has, Fields.has, h name fun heq ↦ hname (heq ▸ hclean)]
    simp only [Lenient.optional, readSchema, readObject, hnames, htype, field_congr henum,
      field_congr href]

private theorem readParameter_upToNullable {v w : Json} (h : ParameterUpTo UpToNullable v w) :
    readParameter v = readParameter w := by
  rcases h with rfl | ⟨fields, others, rfl, rfl, h⟩
  · rfl
  · have hschema := @field_of_onlyAt _ fields others "schema" ["param_schema"] _ h (by decide) none
      (Lenient.optional readSchema) fun _ _ ↦ readSchema_upToNullable
    have hnames := Fields.hasSurrogateName_congr fun name _ ↦ h.has_eq name
    simp (disch := decide) only [readParameter, readObject, hnames, field_of_notMem h,
      required_of_notMem h, hschema]

variable {S : Json → Json → Prop} {vs ws : List Json}

private theorem isParameter_upTo {v w : Json} (h : ParameterUpTo S v w) :
    isParameter v = isParameter w := by
  rcases h with rfl | ⟨fields, others, rfl, rfl, h⟩
  · rfl
  · rw [isParameter, isParameter, h.has_eq, h.has_eq]

private theorem parameterKey?_upTo {v w : Json} (h : ParameterUpTo S v w) :
    parameterKey? v = parameterKey? w := by
  rcases h with rfl | ⟨fields, others, rfl, rfl, h⟩
  · rfl
  · have hname : fields.get? "name" = others.get? "name" := h.get?_of_ne (by decide)
    have hin : fields.get? "in" = others.get? "in" := h.get?_of_ne (by decide)
    simp only [parameterKey?, Value.fieldOrNull, Value.field?, Value.fields?, Option.bind_some,
      hname, hin]

private theorem forall₂_filter_isParameter (h : Forall₂ (ParameterUpTo S) vs ws) :
    Forall₂ (ParameterUpTo S) (vs.filter isParameter) (ws.filter isParameter) := by
  induction h with
  | nil => exact .nil
  | @cons v w _ _ hvw _ ih =>
    have hsame := isParameter_upTo hvw
    by_cases hv : isParameter v = true
    · rw [List.filter_cons_of_pos hv, List.filter_cons_of_pos (hsame ▸ hv)]
      exact .cons hvw ih
    · rw [List.filter_cons_of_neg hv, List.filter_cons_of_neg (hsame ▸ hv)]
      exact ih

/-- Lists of parameters that are the same up to their schemas give such parameters. -/
theorem parameterEntries_upTo {v w : Json} (h : ParametersUpTo S v w) :
    Agree (Forall₂ (ParameterUpTo S)) (parameterEntries v).outcome
      (parameterEntries w).outcome := by
  rcases h with rfl | ⟨items, others, rfl, rfl, h⟩
  · exact .refl (fun entries ↦ List.forall₂_same.mpr fun _ _ ↦ .inl rfl) _
  · have hblank : (Value.array items : Json).isBlank = (Value.array others : Json).isBlank := by
      cases h <;> rfl
    rw [parameterEntries, parameterEntries, hblank]
    split
    · exact .ok .nil
    · simp only [listed?, outcome_keepParameters]
      exact .ok (forall₂_filter_isParameter h)

private theorem mapM_parameterKey?_upTo (h : Forall₂ (ParameterUpTo S) vs ws) :
    vs.mapM parameterKey? = ws.mapM parameterKey? := by
  induction h with
  | nil => rfl
  | cons hvw _ ih => rw [List.mapM_cons, List.mapM_cons, parameterKey?_upTo hvw, ih]

private theorem forall₂_kept (h : Forall₂ (ParameterUpTo S) vs ws) (keys : List (Json × Json))
    (p : Json × Json → Bool) :
    Forall₂ (ParameterUpTo S) (((vs.zip keys).filter fun e ↦ p e.2).map (·.1))
      (((ws.zip keys).filter fun e ↦ p e.2).map (·.1)) := by
  induction h generalizing keys with
  | nil => exact .nil
  | cons hvw _ ih =>
    cases keys with
    | nil => exact .nil
    | cons key rest =>
      by_cases hkey : p key = true
      · simp only [List.zip_cons_cons, List.filter_cons, hkey, ↓reduceIte, List.map_cons]
        exact .cons hvw (ih rest)
      · simp only [List.zip_cons_cons, List.filter_cons, hkey, ↓reduceIte, Bool.false_eq_true]
        exact ih rest

/-- Merged parameters are the same up to their schemas if the shared and the own ones are. -/
theorem mergeParameters_upTo {own others : List Json} (hshared : Forall₂ (ParameterUpTo S) vs ws)
    (hown : Forall₂ (ParameterUpTo S) own others) :
    Agree (Forall₂ (ParameterUpTo S)) (mergeParameters vs own).outcome
      (mergeParameters ws others).outcome := by
  rw [mergeParameters, mergeParameters, mapM_parameterKey?_upTo hown,
    mapM_parameterKey?_upTo hshared]
  split
  · next overriding keys _ _ =>
    exact .ok (List.rel_append (forall₂_kept hshared keys fun key ↦ !overriding.any (sameKey key))
      hown)
  · exact .error _

private theorem all_readParameter_upTo (h : Forall₂ (ParameterUpTo UpToNullable) vs ws) (i : Nat) :
    Checked.all (fun i _ ↦ .index i) readParameter i vs =
      Checked.all (fun i _ ↦ .index i) readParameter i ws := by
  induction h generalizing i with
  | nil => rfl
  | cons hvw _ ih => rw [Checked.all, Checked.all, readParameter_upToNullable hvw, ih]

private theorem buildShared_upTo (h : Forall₂ (ParameterUpTo UpToNullable) vs ws) :
    buildShared vs = buildShared ws := by
  induction h with
  | nil => rfl
  | cons hvw _ ih => rw [buildShared, buildShared, readParameter_upToNullable hvw, ih]

end Parameters

section Paths

variable {vs ws : List Json}

/-- Operations with parameters that are the same up to their schemas are read the same. -/
theorem readOperation_upTo {fields others : Fields Json}
    (h : Corresponds (OnlyAt "parameters" (ParametersUpTo UpToNullable)) fields others) :
    readOperation (.object fields) = readOperation (.object others) := by
  have hread : ∀ v w, ParametersUpTo UpToNullable v w →
      readList readParameter v = readList readParameter w := by
    rintro v w (rfl | ⟨items, others, rfl, rfl, hitems⟩)
    · rfl
    · exact all_readParameter_upTo hitems 0
  have hparameters := field_of_onlyAt h List.not_mem_nil [] hread
  have hnames := Fields.hasSurrogateName_congr fun name _ ↦ h.has_eq name
  simp (disch := decide) only [readOperation, readObject, hnames, field_of_notMem h, hparameters]

/-- Operations that are the same up to the schemas of their parameters are built the same. -/
theorem buildOperation_upTo (path key : Text) (hshared : Forall₂ (ParameterUpTo UpToNullable) vs ws)
    {fields others : Fields Json}
    (h : Corresponds (OnlyAt "parameters" (ParametersUpTo UpToNullable)) fields others) :
    (buildOperation path key vs fields).outcome = (buildOperation path key ws others).outcome := by
  have hparameters : ParametersUpTo UpToNullable ((fields.get? "parameters").getD .null)
      ((others.get? "parameters").getD .null) := (h.getD (.inl rfl)).elim .inl And.right
  have hbody : fields.get? "requestBody" = others.get? "requestBody" := h.get?_of_ne (by decide)
  refine Agree.eq (Logged.agree_bind (parameterEntries_upTo hparameters) fun own own' hown ↦ ?_)
  refine Logged.agree_bind (mergeParameters_upTo hshared hown) fun merged merged' hmerged ↦ ?_
  rw [hbody]
  refine Logged.agree_bind (R := Eq) (.refl (fun _ ↦ rfl) _) ?_
  rintro body _ rfl
  have hmergedvalue : OnlyAt "parameters" (ParametersUpTo UpToNullable) "parameters"
      (.array merged) (.array merged') := .inr ⟨rfl, .inr ⟨merged, merged', rfl, rfl, hmerged⟩⟩
  have hbodyvalue : OnlyAt "parameters" (ParametersUpTo UpToNullable) "requestBody" body body :=
    .inl rfl
  simp only [readOperation_upTo ((h.set hmergedvalue).set hbodyvalue)]
  exact .refl (fun _ ↦ rfl) _

/-- Path items that are the same up to the schemas of parameters have the same operations. -/
theorem buildOperations_upTo (path : Text) (hshared : Forall₂ (ParameterUpTo UpToNullable) vs ws)
    {fields others : Fields Json} (h : Corresponds (PathItemFieldUpTo UpToNullable) fields others)
    (operations : Fields Operation) :
    (buildOperations path vs fields operations).outcome =
      (buildOperations path ws others operations).outcome := by
  induction h generalizing operations with
  | nil => rfl
  | @cons f g rest rest' hfg _ ih =>
    obtain ⟨key, v⟩ := f
    obtain ⟨_, w⟩ := g
    obtain ⟨rfl, hvalue⟩ := hfg
    cases hmethod : Spec.isMethod key with
    | false =>
      simp only [buildOperations, hmethod]
      exact ih operations
    | true =>
      have hoperation : OperationUpTo UpToNullable v w := by
        rcases hvalue with (rfl | ⟨rfl, -⟩) | ⟨-, h⟩
        · exact .inl rfl
        · exact absurd hmethod (by decide)
        · exact h
      have hobject : ∀ raw other : Fields Json,
          Corresponds (OnlyAt "parameters" (ParametersUpTo UpToNullable)) raw other →
          (buildOperations path vs ((key, .object raw) :: rest) operations).outcome =
            (buildOperations path ws ((key, .object other) :: rest') operations).outcome := by
        intro raw other hraw
        simp only [buildOperations, hmethod]
        exact Logged.outcome_bind_congr (buildOperation_upTo path key hshared hraw) fun operation ↦
          ih (operations.set key.toUpper operation)
      rcases hoperation with rfl | ⟨raw, other, rfl, rfl, hraw⟩
      · cases v with
        | object raw => exact hobject raw raw (.refl (fun _ _ ↦ .inl rfl) raw)
        | _ =>
          simp only [buildOperations, hmethod]
          exact ih operations
      · exact hobject raw other hraw

/-- Path items that are the same up to the schemas of parameters are built the same. -/
theorem buildPathItem_upTo (path : Text) {fields others : Fields Json}
    (h : Corresponds (PathItemFieldUpTo UpToNullable) fields others) :
    (buildPathItem path fields).outcome = (buildPathItem path others).outcome := by
  have hparameters : ParametersUpTo UpToNullable ((fields.get? "parameters").getD .null)
      ((others.get? "parameters").getD .null) := by
    have hvalue : PathItemFieldUpTo UpToNullable "parameters"
        ((fields.get? "parameters").getD .null) ((others.get? "parameters").getD .null) :=
      h.getD (.inl (.inl rfl))
    rcases hvalue with hvalue | ⟨hmethod, -⟩
    · exact hvalue.elim .inl And.right
    · exact absurd hmethod (by decide)
  refine Agree.eq (Logged.agree_bind (parameterEntries_upTo hparameters) fun vs ws hshared ↦ ?_)
  rw [buildShared_upTo hshared, Logged.outcome_bind, Logged.outcome_bind,
    buildOperations_upTo path hshared h]
  exact .refl (fun _ ↦ rfl) _

/-- Paths that are the same up to the schemas of parameters are built the same. -/
theorem buildPaths_upTo {fields others : Fields Json}
    (h : Corresponds (fun _ ↦ PathItemUpTo UpToNullable) fields others) :
    (buildPaths fields).outcome = (buildPaths others).outcome := by
  induction h with
  | nil => rfl
  | @cons f g rest others hfg _ ih =>
    obtain ⟨path, v⟩ := f
    obtain ⟨_, w⟩ := g
    obtain ⟨rfl, hvalue⟩ := hfg
    have hobject : ∀ item other : Fields Json,
        Corresponds (PathItemFieldUpTo UpToNullable) item other →
        (buildPaths ((path, .object item) :: rest)).outcome =
          (buildPaths ((path, .object other) :: others)).outcome := by
      intro item other hitem
      simp only [buildPaths]
      refine Logged.outcome_bind_congr (buildPathItem_upTo path hitem) fun pathItem ↦ ?_
      exact Logged.outcome_bind_congr ih fun _ ↦ rfl
    rcases hvalue with rfl | ⟨item, other, rfl, rfl, hitem⟩
    · cases v with
      | object item => exact hobject item item (.refl (fun _ _ ↦ .inl (.inl rfl)) item)
      | _ => exact ih
    · exact hobject item other hitem

/-- Documents that are the same up to the schemas of parameters have the same model. -/
theorem ofSpec_upTo {spec other : Fields Json} (h : DocumentUpTo UpToNullable spec other) :
    (ofSpec (.object spec)).outcome = (ofSpec (.object other)).outcome := by
  have hsame : ∀ name ≠ Text.ofString "paths", spec.get? name = other.get? name :=
    fun _ ↦ h.get?_of_ne
  have hread : ∀ paths, readDocument spec paths = readDocument other paths := fun paths ↦ by
    simp only [readDocument, hsame "openapi" (by decide), hsame "info" (by decide),
      hsame "servers" (by decide), hsame "components" (by decide)]
  have hpaths : SameOrObjects (fun _ ↦ PathItemUpTo UpToNullable)
      (orElse ((spec.get? "paths").getD .null) (.object []))
      (orElse ((other.get? "paths").getD .null) (.object [])) := by
    have hvalue : OnlyAt "paths" (SameOrObjects fun _ ↦ PathItemUpTo UpToNullable) "paths"
        ((spec.get? "paths").getD .null) ((other.get? "paths").getD .null) :=
      Corresponds.getD h (.inl rfl)
    generalize (spec.get? "paths").getD .null = v at hvalue ⊢
    generalize (other.get? "paths").getD .null = w at hvalue ⊢
    rcases hvalue with rfl | ⟨-, rfl | ⟨fields, others, rfl, rfl, hfields⟩⟩
    · exact .inl rfl
    · exact .inl rfl
    · cases hfields with
      | nil => exact .inl rfl
      | cons hfg hrest => exact .inr ⟨_, _, rfl, rfl, .cons hfg hrest⟩
  simp only [ofSpec, hread]
  generalize orElse ((spec.get? "paths").getD .null) (.object []) = v at hpaths ⊢
  generalize orElse ((other.get? "paths").getD .null) (.object []) = w at hpaths ⊢
  rcases hpaths with rfl | ⟨fields, others, rfl, rfl, hfields⟩
  · rfl
  · exact Logged.outcome_bind_congr (buildPaths_upTo hfields) fun _ ↦ rfl

end Paths

end Document

namespace Catalog

open Spec (DocumentUpTo IsBareUnionOf Place normalTree)

/-- Null unions in place of their other members as schemas of parameters leave the catalog of the
normal document, and the ways in which there is none, as they are. -/
theorem build_unwrapped {spec other : Fields Json} (h : DocumentUpTo IsBareUnionOf spec other)
    (strict : Bool) :
    (Document.ofSpec (.object (normalTree spec))).outcome.map (fun d ↦ (build strict d).outcome) =
      (Document.ofSpec (.object (normalTree other))).outcome.map
        fun d ↦ (build strict d).outcome := by
  rw [Document.ofSpec_upTo (Spec.documentUpTo_normalTree h)]

/-- A path item that shares a parameter of the first schema and has an operation with one of the
second. -/
private def sharingSpec (shared own : Json) : Fields Json :=
  [("openapi", .string "3.0.0"), ("paths", .object [("/a", .object [
    ("parameters", .array [.object [("name", .string "p"), ("in", .string "query"),
      ("schema", shared)]]),
    ("get", .object [("parameters", .array [.object [("name", .string "q"), ("in", .string "query"),
      ("schema", own)]])])])])]

private def letters : Fields Json :=
  [("type", .string "string"), ("enum", .array [.string "a", .string "b"])]

private def count : Fields Json := [("type", .string "integer"), ("nullable", .bool false)]

private def nothing : Fields Json := [("type", .string "null")]

/-- A shared parameter and an own one whose schemas are null unions, in either order of the members,
have the types and restrictions of the other members. -/
theorem build_unwrapped_shared :
    DocumentUpTo IsBareUnionOf
      (sharingSpec (.object [("anyOf", .array [.object letters, .object nothing])])
        (.object [("anyOf", .array [.object nothing, .object count])]))
      (sharingSpec (.object letters) (.object count)) ∧
    ((Document.ofSpec (.object (normalTree (sharingSpec
        (.object [("anyOf", .array [.object letters, .object nothing])])
        (.object [("anyOf", .array [.object nothing, .object count])]))))).outcome.map
        fun d ↦ (build true d).outcome).map (Except.map fun tools ↦
          tools.flatMap fun t ↦ t.parameters.map fun p ↦ (p.primitiveType, p.enumValues)) =
      .ok (.ok [(Text.ofString "string", some [Text.ofString "a", Text.ofString "b"]),
        (Text.ofString "integer", none)]) := by
  have hparameter : ∀ (name : Text) {v w : Json}, IsBareUnionOf v w →
      Spec.ParametersUpTo IsBareUnionOf
        (.array [.object [("name", .string name), ("in", .string "query"), ("schema", v)]])
        (.array [.object [("name", .string name), ("in", .string "query"), ("schema", w)]]) :=
    fun name v w h ↦ .inr ⟨_, _, rfl, rfl, .cons (.inr ⟨_, _, rfl, rfl, .cons ⟨rfl, .inl rfl⟩
      (.cons ⟨rfl, .inl rfl⟩ (.cons ⟨rfl, .inr ⟨rfl, h⟩⟩ .nil))⟩) .nil⟩
  have hletters : IsBareUnionOf (.object [("anyOf", .array [.object letters, .object nothing])])
      (.object letters) :=
    ⟨nothing, letters, "string", rfl, rfl, by decide, by decide, rfl, rfl, .inr rfl⟩
  have hcount : IsBareUnionOf (.object [("anyOf", .array [.object nothing, .object count])])
      (.object count) :=
    ⟨nothing, count, "integer", rfl, rfl, by decide, by decide, rfl, rfl, .inl rfl⟩
  have hdocument : DocumentUpTo IsBareUnionOf
      (sharingSpec (.object [("anyOf", .array [.object letters, .object nothing])])
        (.object [("anyOf", .array [.object nothing, .object count])]))
      (sharingSpec (.object letters) (.object count)) := by
    refine .cons ⟨rfl, .inl rfl⟩
      (.cons ⟨rfl, .inr ⟨rfl, .inr ⟨_, _, rfl, rfl, .cons ⟨rfl, ?_⟩ .nil⟩⟩⟩ .nil)
    refine .inr ⟨_, _, rfl, rfl, .cons ⟨rfl, .inl (.inr ⟨rfl, hparameter "p" hletters⟩)⟩
      (.cons ⟨rfl, .inr ⟨by decide, .inr ⟨_, _, rfl, rfl, ?_⟩⟩⟩ .nil)⟩
    exact .cons ⟨rfl, .inr ⟨rfl, hparameter "q" hcount⟩⟩ .nil
  have hwithin : Place.normalWithin 40 .document (.object (sharingSpec (.object letters)
      (.object count))) = .object (sharingSpec (.object letters) (.object count)) := by
    decide +kernel
  have hnormal : normalTree (sharingSpec (.object letters) (.object count)) =
      sharingSpec (.object letters) (.object count) :=
    Value.object.inj ((Place.normalWithin_eq .document (by decide +kernel)).symm.trans hwithin)
  rw [build_unwrapped hdocument true, hnormal]
  exact ⟨hdocument, by rfl⟩

end Catalog

end ApiTools
