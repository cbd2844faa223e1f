import ApiTools.Proofs.DistinctNames
import ApiTools.Proofs.NullUnions
import ApiTools.Spec.Normal
import ApiTools.Validation.Issue

/-!
# Places in a document

What a value inside a document is looked at as depends on where it stands: as a schema, as a map of
schemas, as the schema of a parameter and so on. Each kind of place says what a field or an item of
a value there is looked at as, and what a document in normal form has changed in the fields of an
object there itself (`retouch`). The normal form of a document is the retouching of every object by
its place, from the outside to the inside (`normal_object`, `normal_array`). It is reached in one go
(`normal_normal`), and what the reader keeps of a document stays in it: names are distinct
(`distinctNames_normal`), and whole numbers within the limit.
-/

namespace ApiTools

namespace Schema.Repair

open Spec (onObject)

/-- A field behind the repair of a node: with the schemas that are reached through it repaired. -/
def below (r : Repair) (name : Text) (v : Json) : Json :=
  if name = "properties" then onObject (Fields.mapValues (onObject r.everywhere)) v
  else if name = "items" then onObject r.everywhere v
  else v

private theorem map_attach_eq {α β : Type} {l : List α} {f : { x // x ∈ l } → β} {g : α → β}
    (h : ∀ x hx, f ⟨x, hx⟩ = g x) : l.attach.map f = l.map g :=
  (List.map_congr_left fun ⟨x, hx⟩ _ ↦ h x hx).trans List.attach_map_val

/-- A repair everywhere is the repair of the node and then of what its fields lead to. -/
theorem everywhere_eq (r : Repair) (node : Node) :
    r.everywhere node = (r.apply node).mapNamed r.below := by
  rw [everywhere, Fields.mapNamed]
  apply map_attach_eq
  rintro ⟨name, v⟩ _
  by_cases hproperties : name = "properties"
  · simp only [below, hproperties, ↓reduceIte]
    cases v with
    | object schemas =>
      simp only [onObject, Fields.mapValues, Prod.mk.injEq, Value.object.injEq, true_and]
      apply map_attach_eq
      rintro ⟨property, schema⟩ _
      cases schema <;> rfl
    | _ => rfl
  · by_cases hitems : name = "items"
    · simp only [below, hitems, ↓reduceIte]
      cases v <;> rfl
    · simp only [below, hproperties, hitems, ↓reduceIte]

end Schema.Repair

namespace Spec

open Schema (Node IsNullUnion liftNullUnion dropNonStandard nonStandardFields)

/-- What a value inside a document is looked at as. -/
inductive Place where
  | document
  | components
  /-- Schemas by name: those of the components, and the properties of a schema. -/
  | schemas
  | schema
  /-- The parameters of the components, by name. -/
  | parameterMap
  /-- The parameters of a path item or of an operation. -/
  | parameterList
  | parameter
  | parameterSchema
  | paths
  | pathItem
  | operation
  /-- Anything else. -/
  | other
deriving DecidableEq

namespace Place

/-- What a field of an object is looked at as. -/
def field : Place → Text → Place
  | .document, name =>
    if name = "components" then .components else if name = "paths" then .paths else .other
  | .components, name =>
    if name = "schemas" then .schemas else if name = "parameters" then .parameterMap else .other
  | .schemas, _ => .schema
  | .schema, name =>
    if name = "properties" then .schemas else if name = "items" then .schema else .other
  | .parameterMap, _ => .parameter
  | .parameter, name => if name = "schema" then .parameterSchema else .other
  | .paths, _ => .pathItem
  | .pathItem, name =>
    if name = "parameters" then .parameterList else if isMethod name then .operation else .other
  | .operation, name => if name = "parameters" then .parameterList else .other
  | .parameterList, _ | .parameterSchema, _ | .other, _ => .other

/-- What an item of an array is looked at as. -/
def item : Place → Place
  | .parameterList => .parameter
  | _ => .other

/-- What the normal form changes in the fields of an object itself. -/
def retouch : Place → Fields Json → Fields Json
  | .document, node => node.adjust "openapi" normalVersion
  | .schema, node => dropNonStandard (liftNullUnion node)
  | .parameterSchema, node => liftNullUnion node
  | _, node => node

/-- The normal form of a value at a place. -/
def normal : Place → Json → Json
  | .document => onObject normalTree
  | .components => normalComponents
  | .schemas => onObject (Fields.mapValues normalSchema)
  | .schema => normalSchema
  | .parameterMap => onObject (Fields.mapValues normalParameter)
  | .parameterList => onItems normalParameter
  | .parameter => normalParameter
  | .parameterSchema => onObject liftNullUnion
  | .paths => onObject (Fields.mapValues normalPathItem)
  | .pathItem => normalPathItem
  | .operation => normalOperation
  | .other => id

section Normal

/-- Both repairs of a schema's field one after the other. -/
private theorem below_below (name : Text) (v : Json) :
    Schema.nonStandard.below name (Schema.nullUnions.below name v) =
      (schema.field name).normal v := by
  by_cases hproperties : name = "properties"
  · subst hproperties
    cases v with
    | object schemas =>
      have hfusion : ∀ w, onObject Schema.nonStandard.everywhere
          (onObject Schema.nullUnions.everywhere w) = normalSchema w := fun w ↦ by cases w <;> rfl
      have hmap : Fields.mapValues (onObject Schema.nonStandard.everywhere)
          (Fields.mapValues (onObject Schema.nullUnions.everywhere) schemas) =
          Fields.mapValues normalSchema schemas := by
        simp only [Fields.mapValues_eq_mapNamed, Fields.mapNamed_mapNamed, hfusion]
      exact congrArg Value.object hmap
    | _ => rfl
  · by_cases hitems : name = "items"
    · subst hitems
      cases v <;> rfl
    · simp only [Schema.Repair.below, field, hproperties, hitems, ↓reduceIte, normal, id]

private theorem normalSchema_object (node : Node) :
    normalSchema (.object node) =
      .object (Fields.mapNamed (fun name ↦ (schema.field name).normal)
        (dropNonStandard (liftNullUnion node))) := by
  have hrepair : Schema.nonStandard.everywhere (Schema.nullUnions.everywhere node) =
      Fields.mapNamed (fun name v ↦ Schema.nonStandard.below name (Schema.nullUnions.below name v))
        (dropNonStandard (liftNullUnion node)) := by
    rw [Schema.Repair.everywhere_eq, Schema.Repair.everywhere_eq]
    exact (congrArg _ (Schema.dropNonStandard_mapNamed _ _)).trans (Fields.mapNamed_mapNamed _ _ _)
  rw [normalSchema, onObject, hrepair]
  simp only [below_below]

/-- An object in normal form is the retouched object with each field in the normal form of its
place. -/
theorem normal_object (p : Place) (node : Fields Json) :
    p.normal (.object node) =
      .object ((p.retouch node).mapNamed fun name ↦ (p.field name).normal) := by
  cases p with
  | schema => exact normalSchema_object node
  | document =>
    simp only [normal, onObject, normalTree, retouch, Fields.adjust_eq_mapNamed,
      Fields.mapNamed_mapNamed]
    congr 2
    funext name v
    by_cases hcomponents : name = "components"
    · subst hcomponents
      rfl
    · by_cases hpaths : name = "paths"
      · subst hpaths
        rfl
      · simp only [hcomponents, hpaths, field, ↓reduceIte, id]
  | components =>
    simp only [normal, normalComponents, onObject, retouch, Fields.adjust_eq_mapNamed,
      Fields.mapNamed_mapNamed]
    congr 2
    funext name v
    by_cases hschemas : name = "schemas"
    · subst hschemas
      rfl
    · by_cases hparameters : name = "parameters"
      · subst hparameters
        rfl
      · simp only [hschemas, hparameters, field, ↓reduceIte, id]
  | pathItem =>
    have hitem : normalPathItem (.object node) =
        .object (Fields.mapNamed (fun key v ↦ if isMethod key then normalOperation v else v)
          (node.adjust "parameters" (onItems normalParameter))) := rfl
    have hretouch : pathItem.retouch node = node := rfl
    rw [normal, hitem, hretouch, Fields.adjust_eq_mapNamed, Fields.mapNamed_mapNamed]
    congr 2
    funext name v
    by_cases hparameters : name = "parameters"
    · subst hparameters
      have hmethod : isMethod "parameters" = false := by decide
      simp only [hmethod, field, ↓reduceIte, normal, Bool.false_eq_true]
    · by_cases hmethod : isMethod name = true
      · simp only [hparameters, hmethod, field, ↓reduceIte, normal]
      · simp only [hparameters, hmethod, field, ↓reduceIte, normal, id, Bool.false_eq_true]
  | parameter =>
    have hretouch : parameter.retouch node = node := rfl
    rw [normal, normalParameter, onObject, hretouch, Fields.adjust_eq_mapNamed]
    congr 2
    funext name v
    by_cases hschema : name = "schema" <;> simp only [hschema, field, ↓reduceIte, normal, id]
  | operation =>
    simp only [normal, normalOperation, onObject, retouch, Fields.adjust_eq_mapNamed]
    congr 2
    funext name v
    by_cases hparameters : name = "parameters" <;>
      simp only [hparameters, field, ↓reduceIte, id]
  | schemas => rfl
  | parameterMap => rfl
  | paths => rfl
  | parameterList => exact congrArg Value.object (Fields.mapNamed_eq_self fun _ _ ↦ rfl).symm
  | parameterSchema => exact congrArg Value.object (Fields.mapNamed_eq_self fun _ _ ↦ rfl).symm
  | other => exact congrArg Value.object (Fields.mapNamed_eq_self fun _ _ ↦ rfl).symm

/-- An array in normal form has each item in the normal form of its place. -/
theorem normal_array (p : Place) (items : List Json) :
    p.normal (.array items) = .array (items.map p.item.normal) := by
  cases p with
  | parameterList => rfl
  | _ => exact congrArg Value.array (List.map_id items).symm

/-- Any other value is in normal form. -/
theorem normal_leaf (p : Place) {v : Json} (hfields : Value.fields? v = none)
    (hitems : Value.items? v = none) :
    p.normal v = v := by
  cases v with
  | object => cases hfields
  | array => cases hitems
  | other e => exact e.elim
  | _ => cases p <;> rfl

end Normal

section Induction

private theorem size_pos (v : Json) : 0 < v.size := by
  cases v with
  | array => exact Nat.add_pos_left Nat.one_pos _
  | object => exact Nat.add_pos_left Nat.one_pos _
  | _ => exact Nat.one_pos

private theorem size_normalVersion (v : Json) : (normalVersion v).size = v.size := by
  cases v with
  | string version =>
    rw [normalVersion]
    split <;> rfl
  | _ => rfl

private theorem fieldsSize_adjust {f : Json → Json} (hf : ∀ v, (f v).size = v.size) (name : Text)
    (node : Fields Json) : Value.fieldsSize (node.adjust name f) = Value.fieldsSize node := by
  induction node with
  | nil => rfl
  | cons g rest ih =>
    have hcons : Fields.adjust (g :: rest) name f =
        (g.1, if g.1 = name then f g.2 else g.2) :: Fields.adjust rest name f := rfl
    rw [hcons, Value.fieldsSize, Value.fieldsSize, ih]
    split
    · rw [hf]
    · rfl

/-- Retouching makes no object larger. -/
theorem fieldsSize_retouch_le (p : Place) (node : Fields Json) :
    Value.fieldsSize (p.retouch node) ≤ Value.fieldsSize node := by
  cases p with
  | document => exact Nat.le_of_eq (fieldsSize_adjust size_normalVersion _ node)
  | schema =>
    exact Nat.le_trans (Schema.nonStandard.size_le (liftNullUnion node)) (Schema.size_lift_le node)
  | parameterSchema => exact Schema.size_lift_le node
  | _ => exact Nat.le_refl _

private theorem size_lt_of_mem_retouch {p : Place} {node : Fields Json} {f : Text × Json}
    (h : f ∈ p.retouch node) : f.2.size < (Value.object node : Json).size := by
  have hfield : f.2.size ≤ Value.fieldsSize (p.retouch node) := Schema.size_le_of_mem h
  have hnode := p.fieldsSize_retouch_le node
  rw [Value.size]
  omega

private theorem size_lt_of_mem_items {items : List Json} {v : Json} (h : v ∈ items) :
    v.size < (Value.array items : Json).size := by
  induction items with
  | nil => cases h
  | cons w rest ih =>
    rw [Value.size, Value.itemsSize]
    rcases List.mem_cons.mp h with rfl | h
    · omega
    · have hrest := ih h
      rw [Value.size] at hrest
      omega

/-- What holds of an object if it holds of the fields that retouching leaves, of an array if it
holds of its items, and of every other value, holds of all values at all places. -/
@[elab_as_elim]
theorem induction {motive : Place → Json → Prop}
    (object : ∀ p node, (∀ f ∈ p.retouch node, motive (p.field f.1) f.2) → motive p (.object node))
    (array : ∀ p items, (∀ v ∈ items, motive p.item v) → motive p (.array items))
    (leaf : ∀ p v, Value.fields? v = none → Value.items? v = none → motive p v)
    (p : Place) (v : Json) : motive p v := by
  induction hsize : v.size using Nat.strongRecOn generalizing p v with
  | ind n ih =>
    subst hsize
    match v with
    | .object node =>
      exact object p node fun f hf ↦ ih f.2.size (size_lt_of_mem_retouch hf) (p.field f.1) f.2 rfl
    | .array items =>
      exact array p items fun v hv ↦ ih v.size (size_lt_of_mem_items hv) p.item v rfl
    | .null => exact leaf p _ rfl rfl
    | .bool _ => exact leaf p _ rfl rfl
    | .int _ => exact leaf p _ rfl rfl
    | .float _ => exact leaf p _ rfl rfl
    | .string _ => exact leaf p _ rfl rfl

/-- The normal form of a value within a number of steps into it, which is found by evaluation. -/
def normalWithin : (fuel : Nat) → Place → Json → Json
  | 0, _, v => v
  | fuel + 1, p, .object node =>
    .object ((p.retouch node).mapNamed fun name ↦ normalWithin fuel (p.field name))
  | fuel + 1, p, .array items => .array (items.map (normalWithin fuel p.item))
  | _ + 1, _, v => v

/-- As many steps as the value has nodes are enough. -/
theorem normalWithin_eq {fuel : Nat} (p : Place) {v : Json} (h : v.size ≤ fuel) :
    normalWithin fuel p v = p.normal v := by
  induction fuel generalizing p v with
  | zero =>
    have hpositive := size_pos v
    omega
  | succ fuel ih =>
    cases v with
    | object node =>
      rw [normalWithin, normal_object]
      refine congrArg Value.object (Fields.mapNamed_congr fun f hf ↦ ih _ ?_)
      have hlt := size_lt_of_mem_retouch hf
      omega
    | array items =>
      rw [normalWithin, normal_array]
      refine congrArg Value.array (List.map_congr_left fun w hw ↦ ih _ ?_)
      have hlt := size_lt_of_mem_items hw
      omega
    | other e => exact e.elim
    | _ => exact (normal_leaf p rfl rfl).symm

end Induction

section Idempotence

private theorem normalVersion_normalVersion (v : Json) :
    normalVersion (normalVersion v) = normalVersion v := by
  cases v with
  | string version =>
    by_cases hversion : Text.startsWith version "3.1" = true
    · rw [normalVersion, if_pos hversion]
      rfl
    · rw [normalVersion, if_neg hversion, normalVersion, if_neg hversion]
  | _ => rfl

/-- After retouching, changing the fields by their places leaves nothing to retouch. -/
theorem retouch_mapNamed_retouch (p : Place) (node : Fields Json) :
    p.retouch ((p.retouch node).mapNamed fun name ↦ (p.field name).normal) =
      (p.retouch node).mapNamed fun name ↦ (p.field name).normal := by
  have hlift : ∀ (q : Place) (schema : Node), q.field "anyOf" = .other → ¬IsNullUnion schema →
      liftNullUnion (schema.mapNamed fun name ↦ (q.field name).normal) =
        schema.mapNamed fun name ↦ (q.field name).normal := by
    intro q schema hother hunion
    refine Schema.lift_of_not_isNullUnion fun h ↦ hunion ((Schema.isNullUnion_congr ?_).mp h)
    rw [Fields.get?_mapNamed, hother]
    exact Option.map_id_apply
  cases p with
  | document =>
    simp only [retouch, Fields.adjust_eq_mapNamed, Fields.mapNamed_mapNamed]
    congr 1
    funext name v
    by_cases hname : name = "openapi"
    · subst hname
      exact normalVersion_normalVersion v
    · simp only [hname, ↓reduceIte]
  | schema =>
    have hunion : ¬IsNullUnion (dropNonStandard (liftNullUnion node)) := fun h ↦
      Schema.not_isNullUnion_lift node ((Schema.isNullUnion_congr
        (Schema.get?_dropNonStandard _ (by decide))).mp h)
    have hretouch : schema.retouch node = dropNonStandard (liftNullUnion node) := rfl
    rw [hretouch, retouch, hlift schema _ rfl hunion, Schema.dropNonStandard_mapNamed,
      Schema.dropNonStandard_dropNonStandard]
  | parameterSchema => exact hlift parameterSchema _ rfl (Schema.not_isNullUnion_lift node)
  | _ => rfl

/-- A normal form is in normal form. -/
theorem normal_normal (p : Place) (v : Json) : p.normal (p.normal v) = p.normal v := by
  induction p, v using Place.induction with
  | object p node ih =>
    rw [normal_object, normal_object, retouch_mapNamed_retouch, Fields.mapNamed_mapNamed]
    exact congrArg Value.object (Fields.mapNamed_congr fun f hf ↦ ih f hf)
  | array p items ih =>
    rw [normal_array, normal_array, List.map_map]
    exact congrArg Value.array (List.map_congr_left fun v hv ↦ ih v hv)
  | leaf p v hfields hitems => rw [normal_leaf p hfields hitems, normal_leaf p hfields hitems]

end Idempotence

section Properties

open Json (DocumentProperty)
open Value (DistinctNames NumbersWithin)

variable {limit : Option Nat} {p : Json → Prop} {node : Fields Json} {f : Text × Json}

private theorem distinct_retouch (place : Place) (h : node.Distinct) :
    Fields.Distinct (place.retouch node) := by
  cases place with
  | document =>
    rw [retouch, Fields.adjust_eq_mapNamed, Fields.Distinct, Fields.names_mapNamed]
    exact h
  | schema => exact ((Schema.distinct_lift h).erase _).erase _
  | parameterSchema => exact Schema.distinct_lift h
  | _ => exact h

private theorem property_of_mem_lift (hp : DocumentProperty limit p) (h : p (.object node))
    (hf : f ∈ liftNullUnion node) : p f.2 := by
  have hnode := hp.fields h
  rcases Schema.mem_of_mem_lift hf with hf | rfl | ⟨main, hmain, hf⟩
  · exact hnode f hf
  · exact hp.bool true
  · obtain ⟨items, hitems, hmember⟩ := hmain.exists_mem
    exact hp.fields (hp.items (hnode _ hitems) _ hmember) f hf

private theorem property_of_mem_retouch (hp : DocumentProperty limit p) (place : Place)
    (h : p (.object node)) (hf : f ∈ place.retouch node) : p f.2 := by
  have hnode := hp.fields h
  cases place with
  | document =>
    rw [retouch, Fields.adjust_eq_mapNamed, Fields.mem_mapNamed] at hf
    obtain ⟨v, hv, hvalue⟩ := hf
    rw [← hvalue]
    split
    · have hversion := hnode _ hv
      cases v with
      | string version =>
        rw [normalVersion]
        split <;> exact hp.string _
      | _ => exact hversion
    · exact hnode _ hv
  | schema =>
    rw [retouch, Schema.dropNonStandard_eq_filter] at hf
    exact property_of_mem_lift hp h (List.mem_filter.mp hf).1
  | parameterSchema => exact property_of_mem_lift hp h hf
  | _ => exact hnode f hf

/-- The normal form keeps what the reader keeps of a document. -/
theorem property_normal (hp : DocumentProperty limit p) (place : Place) {v : Json} (h : p v) :
    p (place.normal v) := by
  induction place, v using Place.induction with
  | object place node ih =>
    rw [normal_object]
    refine hp.object ?_ fun f hf ↦ ?_
    · rw [Fields.Distinct, Fields.names_mapNamed]
      exact distinct_retouch place (hp.distinct h)
    · obtain ⟨v, hv, hvalue⟩ := Fields.mem_mapNamed.mp hf
      rw [← hvalue]
      exact ih _ hv (property_of_mem_retouch hp place h hv)
  | array place items ih =>
    rw [normal_array]
    refine hp.array fun w hw ↦ ?_
    obtain ⟨v, hv, rfl⟩ := List.mem_map.mp hw
    exact ih v hv (hp.items h v hv)
  | leaf place v hfields hitems => rwa [normal_leaf place hfields hitems]

/-- The lifting of a null union keeps names distinct. -/
theorem distinctNames_of_mem_lift (h : (Value.object node : Json).DistinctNames)
    (hf : f ∈ liftNullUnion node) : f.2.DistinctNames :=
  property_of_mem_lift (Json.documentProperty_distinctNames none) h hf

/-- The normal form keeps the names of every object distinct. -/
theorem distinctNames_normal (place : Place) {v : Json} (h : v.DistinctNames) :
    (place.normal v).DistinctNames :=
  property_normal (Json.documentProperty_distinctNames none) place h

/-- The normal form of a document has whole numbers within the limit if the document has. -/
theorem numbersWithin_normal (place : Place) {v : Json} (hnames : v.DistinctNames)
    (h : v.NumbersWithin limit) : (place.normal v).NumbersWithin limit :=
  (property_normal (Json.documentProperty_numbersWithin limit) place ⟨hnames, h⟩).2

end Properties

end Place

end Spec

end ApiTools
