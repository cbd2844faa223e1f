import ApiTools.Proofs.Places

/-!
# What the normal form leaves alone

The normal form takes some fields out of the objects of a document (`Drops`) and gives some a value
(`Assigns`): the version, the fields of a null union that is lifted in a schema or in the schema of
a parameter, and the fields of schemas that no version knows. A path that leads through no such
field leads to the same part of the normal document, with the same names in the same order, and to
the same value where no schema nor parameter can follow (`at?_normalTree`).
-/

namespace ApiTools

namespace Value

variable {ε : Type}

/-- The part of a value that a step leads to. -/
def step? (v : Value ε) : Step → Option (Value ε)
  | .field name => v.field? name
  | .index i => v.items?.bind fun items ↦ items[i]?

/-- The part of a value that a path leads to. -/
def at? : Value ε → List Step → Option (Value ε)
  | v, [] => some v
  | v, step :: path => (v.step? step).bind fun w ↦ w.at? path

end Value

namespace Spec

open Schema (Node IsNullUnion IsUnionOf liftNullUnion dropNonStandard nonStandardFields)

namespace Place

/-- What the part behind a step is looked at as. -/
def step (p : Place) : Step → Place
  | .field name => p.field name
  | .index _ => p.item

/-- What the part at the end of a path is looked at as. -/
def along (p : Place) (path : List Step) : Place := path.foldl step p

/-- The fields that the normal form takes out of an object. -/
def Drops : Place → Node → Text → Prop
  | .schema, node, name => name ∈ nonStandardFields ∨ (name = "anyOf" ∧ IsNullUnion node)
  | .parameterSchema, node, name => name = "anyOf" ∧ IsNullUnion node
  | _, _, _ => False

/-- The fields that the normal form gives a value in an object. -/
def Assigns : Place → Node → Text → Prop
  | .document, node, name => name = "openapi" ∧
    ∃ version, node.get? "openapi" = some (.string version) ∧ Text.startsWith version "3.1" = true
  | .schema, node, name | .parameterSchema, node, name =>
    ∃ main, IsUnionOf node main ∧ (name = "nullable" ∨ name ∈ main.names)
  | _, _, _ => False

instance (p : Place) (node : Node) : DecidablePred (p.Drops node) := fun _ ↦
  match p with
  | .schema => inferInstanceAs (Decidable (_ ∨ _))
  | .parameterSchema => inferInstanceAs (Decidable (_ ∧ _))
  | .document | .components | .schemas | .parameterMap | .parameterList | .parameter | .paths
  | .pathItem | .operation | .other => .isFalse id

/-- The step leads through a field that the normal form takes out or gives a value. -/
def Touches (p : Place) : Json → Step → Prop
  | .object node, .field name => p.Drops node name ∨ p.Assigns node name
  | _, _ => False

/-- The path leads through no field that the normal form takes out or gives a value. -/
def Free : Place → Json → List Step → Prop
  | _, _, [] => True
  | p, v, step :: path =>
    ¬p.Touches v step ∧ ∀ w, Value.step? v step = some w → (p.step step).Free w path

/-- What the normal form keeps of a value as a whole. The names of an object that are not taken out
stay in their order, and the new ones among those with a given value follow; an array stays as long
as it is; a value of another kind, and anything where no schema nor parameter can follow, stays what
it is. -/
structure Keeps (p : Place) (v w : Json) : Prop where
  names : ∀ node, v = .object node → ∃ fields added, w = .object fields ∧
    Fields.names fields = (Fields.names node).filter (¬p.Drops node ·) ++ added ∧
    ∀ name ∈ added, p.Assigns node name ∧ name ∉ Fields.names node
  length : ∀ items, v = .array items → ∃ others, w = .array others ∧ others.length = items.length
  leaf : Value.fields? v = none → Value.items? v = none → w = v
  other : p = .other → w = v

/-- A path is free if its first step leads through no touched field to a part with a free path. -/
theorem Free.cons {p : Place} {v w : Json} {step : Step} {path : List Step}
    (h : ¬p.Touches v step) (hw : Value.step? v step = some w) (hpath : (p.step step).Free w path) :
    p.Free v (step :: path) := by
  refine ⟨h, fun u hu ↦ ?_⟩
  rw [hw] at hu
  cases hu
  exact hpath

/-- In a schema without `anyOf` only the fields that no version knows are touched. -/
theorem not_touches_schema {node : Node} {name : Text} (hany : node.get? "anyOf" = none)
    (hstandard : name ∉ nonStandardFields) : ¬schema.Touches (.object node) (.field name) := by
  have hunion := Schema.not_isNullUnion_of_get?_eq_none hany
  rintro ((hname | ⟨-, h⟩) | ⟨main, h, -⟩)
  · exact hstandard hname
  · exact hunion h
  · exact hunion ⟨main, h⟩

section Retouch

variable {p : Place} {node : Node} {name : Text}

private theorem get?_lift (hany : ¬(name = "anyOf" ∧ IsNullUnion node))
    (hassigns : ¬∃ main, IsUnionOf node main ∧ (name = "nullable" ∨ name ∈ main.names)) :
    Fields.get? (liftNullUnion node) name = node.get? name := by
  by_cases hunion : IsNullUnion node
  · obtain ⟨main, hmain⟩ := hunion
    refine Schema.get?_lift_of_isUnionOf hmain (fun h ↦ hassigns ⟨main, hmain, .inr h⟩)
      (fun h ↦ hassigns ⟨main, hmain, .inl h⟩) fun h ↦ hany ⟨h, main, hmain⟩
  · rw [Schema.lift_of_not_isNullUnion hunion]

/-- Retouching leaves a field alone that it neither takes out nor gives a value. -/
theorem get?_retouch (hdrops : ¬p.Drops node name) (hassigns : ¬p.Assigns node name) :
    Fields.get? (p.retouch node) name = node.get? name := by
  cases p with
  | document =>
    rw [retouch, Fields.adjust_eq_mapNamed, Fields.get?_mapNamed]
    split
    · next hname =>
      subst hname
      cases hversion : node.get? "openapi" with
      | none => rfl
      | some v =>
        cases v with
        | string version =>
          have hstart : ¬Text.startsWith version "3.1" = true := fun h ↦
            hassigns ⟨rfl, version, hversion, h⟩
          rw [Option.map_some, normalVersion, if_neg hstart]
        | _ => rfl
    · exact Option.map_id_apply
  | schema =>
    obtain ⟨hstandard, hany⟩ := not_or.mp hdrops
    rw [retouch, Schema.get?_dropNonStandard _ hstandard]
    exact get?_lift hany hassigns
  | parameterSchema => exact get?_lift hdrops hassigns
  | _ => rfl

private theorem names_lift (node : Node) :
    ∃ added, Fields.names (liftNullUnion node) =
      node.names.filter (¬parameterSchema.Drops node ·) ++ added ∧
      ∀ name ∈ added, parameterSchema.Assigns node name ∧ name ∉ node.names := by
  by_cases hunion : IsNullUnion node
  · obtain ⟨main, hmain⟩ := hunion
    obtain ⟨added, hnames, hadded⟩ := Schema.names_lift_of_isUnionOf hmain
    refine ⟨added, hnames.trans ?_, fun name hname ↦ ⟨⟨main, hmain, (hadded name hname).1⟩,
      (hadded name hname).2⟩⟩
    congr 2
    funext name
    have hdrops : parameterSchema.Drops node name ↔ name = "anyOf" :=
      and_iff_left ⟨main, hmain⟩
    simp only [ne_eq, hdrops]
  · refine ⟨[], ?_, nofun⟩
    have hdrops : ∀ name, ¬parameterSchema.Drops node name := fun name h ↦ hunion h.2
    rw [Schema.lift_of_not_isNullUnion hunion, List.append_nil, eq_comm, List.filter_eq_self]
    exact fun name _ ↦ decide_eq_true (hdrops name)

/-- Retouching keeps the names that it does not take out in their order and adds new ones at the
end. -/
theorem names_retouch (p : Place) (node : Node) :
    ∃ added, Fields.names (p.retouch node) = node.names.filter (¬p.Drops node ·) ++ added ∧
      ∀ name ∈ added, p.Assigns node name ∧ name ∉ node.names := by
  have hkept : ∀ q : Place, (∀ name, ¬q.Drops node name) →
      node.names = node.names.filter (¬q.Drops node ·) ++ [] := fun q hq ↦ by
    rw [List.append_nil, eq_comm, List.filter_eq_self]
    exact fun name _ ↦ decide_eq_true (hq name)
  cases p with
  | document =>
    refine ⟨[], ?_, nofun⟩
    rw [retouch, Fields.adjust_eq_mapNamed, Fields.names_mapNamed]
    exact hkept document fun _ ↦ id
  | schema =>
    obtain ⟨added, hnames, hadded⟩ := names_lift node
    refine ⟨added.filter (· ∉ nonStandardFields), ?_, fun name hname ↦
      hadded name (List.mem_filter.mp hname).1⟩
    rw [retouch, Schema.names_dropNonStandard, hnames, List.filter_append, List.filter_filter]
    congr 2
    funext name
    rw [← Bool.decide_and, decide_eq_decide]
    exact not_or.symm
  | parameterSchema => exact names_lift node
  | _ => exact ⟨[], hkept _ fun _ ↦ id, nofun⟩

end Retouch

section Paths

variable {p : Place} {v : Json}

/-- The normal form keeps a value as a whole. -/
theorem keeps_normal (p : Place) (v : Json) : p.Keeps v (p.normal v) where
  names := by
    rintro node rfl
    obtain ⟨added, hnames, hadded⟩ := names_retouch p node
    exact ⟨_, added, normal_object p node, (Fields.names_mapNamed _ _).trans hnames, hadded⟩
  length := by
    rintro items rfl
    exact ⟨_, normal_array p items, List.length_map _⟩
  leaf := normal_leaf p
  other := by
    rintro rfl
    rfl

/-- A step through no touched field leads to the normal form of what it led to. -/
theorem step?_normal {step : Step} (h : ¬p.Touches v step) :
    Value.step? (p.normal v) step = (Value.step? v step).map (p.step step).normal := by
  cases v with
  | object node =>
    rw [normal_object]
    cases step with
    | index i => rfl
    | field name =>
      obtain ⟨hdrops, hassigns⟩ := not_or.mp h
      have hget := Fields.get?_mapNamed (fun name ↦ (p.field name).normal) (p.retouch node) name
      rw [get?_retouch hdrops hassigns] at hget
      exact hget
  | array items =>
    rw [normal_array]
    cases step with
    | field name => rfl
    | index i => exact List.getElem?_map
  | other e => exact e.elim
  | _ =>
    rw [normal_leaf p rfl rfl]
    cases step <;> rfl

/-- A path through no touched field leads to the normal form of what it led to. -/
theorem at?_normal {path : List Step} (h : p.Free v path) :
    Value.at? (p.normal v) path = (Value.at? v path).map (p.along path).normal := by
  induction path generalizing p v with
  | nil => rfl
  | cons step path ih =>
    obtain ⟨hstep, hpath⟩ := h
    rw [Value.at?, Value.at?, step?_normal hstep]
    cases hw : Value.step? v step with
    | none => rfl
    | some w => exact ih (hpath w hw)

end Paths

end Place

/-- A path through no field that the normal form takes out or gives a value leads to nothing in the
document and in its normal form, or to a part of the one and to what the normal form keeps of it. -/
theorem at?_normalTree (spec : Fields Json) {path : List Step}
    (h : Place.document.Free (.object spec) path) :
    Option.Rel (Place.document.along path).Keeps (Value.at? (.object spec) path)
      (Value.at? (.object (normalTree spec)) path) := by
  have hnormal := Place.at?_normal h
  rw [show Place.document.normal (.object spec) = .object (normalTree spec) from rfl] at hnormal
  rw [hnormal]
  cases Value.at? (Value.object spec) path with
  | none => exact .none
  | some v => exact .some (Place.keeps_normal _ v)

/-- A component schema with an unknown field and with a property named `anyOf`, whose `allOf` has a
null union with an unknown field. -/
private def composedSpec : Fields Json :=
  [("components", .object [("schemas", .object [("A", .object [("error_messages", .null),
    ("properties", .object [("anyOf", .object [("allOf", .array [.object [("anyOf", .array
      [.object [("type", .string "null")], .object [("type", .string "string")]]),
        ("error_messages", .null)]])])])])])])]

private def composedPath : List Step :=
  [.field "components", .field "schemas", .field "A", .field "properties", .field "anyOf",
    .field "allOf", .index 0]

/-- A union behind a property named `anyOf` stays, with the field beside it, though the schema
around it is repaired. -/
theorem at?_normalTree_composed : Place.document.Free (.object composedSpec) composedPath ∧
    Value.at? (.object (normalTree composedSpec)) composedPath =
      some (.object [("anyOf", .array [.object [("type", .string "null")],
        .object [("type", .string "string")]]), ("error_messages", .null)]) := by
  have hfree : Place.document.Free (.object composedSpec) composedPath := by
    -- Only the document and the two schemas on the path could have a touched field at all.
    refine .cons (not_or.mpr ⟨id, fun h ↦ absurd h.1 (by decide)⟩) rfl ?_
    refine .cons (not_or.mpr ⟨id, id⟩) rfl (.cons (not_or.mpr ⟨id, id⟩) rfl ?_)
    refine .cons (Place.not_touches_schema rfl (by decide)) rfl ?_
    refine .cons (not_or.mpr ⟨id, id⟩) rfl ?_
    refine .cons (Place.not_touches_schema rfl (by decide)) rfl ?_
    exact .cons id rfl trivial
  have hrel := at?_normalTree composedSpec hfree
  have hpart : Value.at? (.object composedSpec) composedPath =
      some (.object [("anyOf", .array [.object [("type", .string "null")],
        .object [("type", .string "string")]]), ("error_messages", .null)]) := by rfl
  rw [hpart] at hrel
  refine ⟨hfree, ?_⟩
  cases hnormal : Value.at? (.object (normalTree composedSpec)) composedPath with
  | none =>
    rw [hnormal] at hrel
    cases hrel
  | some w =>
    rw [hnormal] at hrel
    cases hrel with
    | some hkeeps => rw [hkeeps.other (by decide)]

end Spec

end ApiTools
