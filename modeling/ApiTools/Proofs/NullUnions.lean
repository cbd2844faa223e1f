import ApiTools.Proofs.Fields
import ApiTools.Schema.Repair

/-!
# Null unions

What a null union is, without the function that finds one (`nullUnion?_eq_some_iff`), and what
lifting its other member does to the names and values of the node's fields. A node that was lifted
or had no null union has none (`not_isNullUnion_lift`), which only its `anyOf` decides.
-/

namespace ApiTools

namespace Schema

variable {node main : Node}

/-- The type of a schema is a text. -/
def HasType (node : Node) (t : Text) : Prop := node.get? "type" = some (.string t)

/-- The node is a null union of a member: its `anyOf` has two members, that one with a type other
than null, and one of type null. -/
def IsUnionOf (node main : Node) : Prop :=
  ∃ (null : Node) (t : Text), HasType null "null" ∧ HasType main t ∧ t ≠ "null" ∧
    (node.get? "anyOf" = some (.array [.object null, .object main]) ∨
      node.get? "anyOf" = some (.array [.object main, .object null]))

/-- The node is a null union. -/
def IsNullUnion (node : Node) : Prop := ∃ main, IsUnionOf node main

section Unions

private theorem typeName?_eq_some_iff {t : Text} : typeName? node = some t ↔ HasType node t := by
  rw [typeName?, HasType, Option.bind_eq_some_iff]
  constructor
  · rintro ⟨v, hv, htext⟩
    cases v <;> cases htext
    exact hv
  · exact fun h ↦ ⟨_, h, rfl⟩

private theorem lifted?_eq_some_iff {v w : Json} :
    lifted? v w = some main ↔ ∃ (null : Node) (t : Text), HasType null "null" ∧ HasType main t ∧
      t ≠ "null" ∧
      ((v = .object null ∧ w = .object main) ∨ (v = .object main ∧ w = .object null)) := by
  constructor
  · intro h
    unfold lifted? at h
    split at h
    · next a b =>
      split at h
      · next hnull =>
        split at h
        · cases h
        · next hother =>
          cases h
          obtain ⟨hne, hnone⟩ := not_or.mp hother
          obtain ⟨t, ht⟩ := Option.ne_none_iff_exists'.mp hnone
          refine ⟨a, t, typeName?_eq_some_iff.mp hnull, typeName?_eq_some_iff.mp ht, ?_,
            .inl ⟨rfl, rfl⟩⟩
          rintro rfl
          exact hne ht
      · next hne =>
        split at h
        · next hnull =>
          cases h
          obtain ⟨t, ht⟩ := Option.ne_none_iff_exists'.mp hnull.2
          refine ⟨b, t, typeName?_eq_some_iff.mp hnull.1, typeName?_eq_some_iff.mp ht, ?_,
            .inr ⟨rfl, rfl⟩⟩
          rintro rfl
          exact hne ht
        · cases h
    · cases h
  · rintro ⟨null, t, hnull, hmain, hne, ⟨rfl, rfl⟩ | ⟨rfl, rfl⟩⟩
    · rw [← typeName?_eq_some_iff] at hnull hmain
      simp [lifted?, hnull, hmain, hne]
    · rw [← typeName?_eq_some_iff] at hnull hmain
      simp [lifted?, hnull, hmain, hne]

/-- The member that is lifted is the one that the node is a null union of. -/
theorem nullUnion?_eq_some_iff : nullUnion? node = some main ↔ IsUnionOf node main := by
  unfold nullUnion? IsUnionOf
  split
  · next v w hany =>
    rw [lifted?_eq_some_iff]
    simp only [hany, Option.some.injEq, Value.array.injEq, List.cons.injEq, and_true]
  · next hany =>
    refine ⟨nofun, ?_⟩
    rintro ⟨null, t, -, -, -, h | h⟩
    · exact absurd h (hany _ _)
    · exact absurd h (hany _ _)

private theorem nullUnion?_eq_none_iff : nullUnion? node = none ↔ ¬IsNullUnion node := by
  simp only [IsNullUnion, ← nullUnion?_eq_some_iff, Option.eq_none_iff_forall_ne_some, not_exists,
    ne_eq]

instance : Decidable (IsNullUnion node) :=
  decidable_of_iff ((nullUnion? node).isSome = true) (by
    rw [Option.isSome_iff_exists, IsNullUnion]
    simp only [nullUnion?_eq_some_iff])

/-- Whether a node is a null union is decided by its `anyOf`. -/
theorem isNullUnion_congr {other : Node} (h : node.get? "anyOf" = other.get? "anyOf") :
    IsNullUnion node ↔ IsNullUnion other := by
  simp only [IsNullUnion, IsUnionOf, h]

end Unions

section Lift

/-- A null union is replaced by its other member, beside the fields that stand there. -/
theorem lift_of_isUnionOf (h : IsUnionOf node main) :
    liftNullUnion node = ((node.update main).set "nullable" (.bool true)).erase "anyOf" := by
  rw [liftNullUnion, nullUnion?_eq_some_iff.mpr h]

/-- What is no null union stays. -/
theorem lift_of_not_isNullUnion (h : ¬IsNullUnion node) : liftNullUnion node = node := by
  rw [liftNullUnion, nullUnion?_eq_none_iff.mpr h]

/-- A node without members is no null union. -/
theorem not_isNullUnion_of_get?_eq_none (h : node.get? "anyOf" = none) : ¬IsNullUnion node := by
  rintro ⟨main, null, t, -, -, -, hany | hany⟩
  · rw [h] at hany
    cases hany
  · rw [h] at hany
    cases hany

/-- A node that was lifted is no null union. -/
theorem not_isNullUnion_lift (node : Node) : ¬IsNullUnion (liftNullUnion node) := by
  by_cases h : IsNullUnion node
  · obtain ⟨main, h⟩ := h
    rw [lift_of_isUnionOf h]
    exact not_isNullUnion_of_get?_eq_none (by rw [Fields.get?_erase, if_pos rfl])
  · rwa [lift_of_not_isNullUnion h]

/-- Lifting changes the fields of the lifted member, `nullable` and `anyOf` alone. -/
theorem get?_lift_of_isUnionOf (h : IsUnionOf node main) {name : Text} (hmain : name ∉ main.names)
    (hnullable : name ≠ "nullable") (hany : name ≠ "anyOf") :
    (liftNullUnion node).get? name = node.get? name := by
  have hset : Fields.get? main.reverse name = none := by
    rw [Fields.get?_eq_none_iff, Fields.names, List.map_reverse, List.mem_reverse]
    exact hmain
  rw [lift_of_isUnionOf h, Fields.get?_erase, if_neg (Ne.symm hany), Fields.get?_set,
    if_neg (Ne.symm hnullable), Fields.get?_update, hset, Option.none_or]

/-- Lifting takes `anyOf` away and adds new names at the end. -/
theorem names_lift_of_isUnionOf (h : IsUnionOf node main) :
    ∃ added, (liftNullUnion node).names = node.names.filter (· ≠ Text.ofString "anyOf") ++ added ∧
      ∀ name ∈ added, (name = "nullable" ∨ name ∈ main.names) ∧ name ∉ node.names := by
  obtain ⟨added, hnames, hadded⟩ := Fields.names_update node main
  have hset : ∃ new, ((node.update main).set "nullable" (.bool true)).names = node.names ++ new ∧
      ∀ name ∈ new, (name = "nullable" ∨ name ∈ main.names) ∧ name ∉ node.names := by
    rw [Fields.names_set, hnames]
    have hold : ∀ name ∈ added, (name = "nullable" ∨ name ∈ main.names) ∧ name ∉ node.names :=
      fun name hname ↦ (hadded name hname).imp_left .inr
    split
    · exact ⟨added, rfl, hold⟩
    · next hnew =>
      refine ⟨added ++ [Text.ofString "nullable"], List.append_assoc .., fun name hname ↦ ?_⟩
      rcases List.mem_append.mp hname with hname | hname
      · exact hold name hname
      · rw [List.mem_singleton.mp hname]
        exact ⟨.inl rfl, fun hmem ↦ hnew (List.mem_append_left added hmem)⟩
  obtain ⟨new, hnew, hmem⟩ := hset
  refine ⟨new.filter (· ≠ Text.ofString "anyOf"), ?_, fun name hname ↦
    hmem name (List.mem_filter.mp hname).1⟩
  rw [lift_of_isUnionOf h, Fields.names_erase, hnew, List.filter_append]

/-- A field that is there after lifting was there, is a field of a member of the null union, or says
that the schema is nullable. -/
theorem mem_of_mem_lift {f : Text × Json} (h : f ∈ liftNullUnion node) :
    f ∈ node ∨ f = (Text.ofString "nullable", .bool true) ∨
      ∃ main, IsUnionOf node main ∧ f ∈ main := by
  by_cases hunion : IsNullUnion node
  · obtain ⟨main, hmain⟩ := hunion
    rw [lift_of_isUnionOf hmain, Fields.erase_eq_filter] at h
    rcases Fields.mem_of_mem_set (List.mem_filter.mp h).1 with h | h
    · rcases Fields.mem_of_mem_update h with h | h
      · exact .inl h
      · exact .inr (.inr ⟨main, hmain, h⟩)
    · exact .inr (.inl h)
  · rw [lift_of_not_isNullUnion hunion] at h
    exact .inl h

/-- The member that a node is a null union of stands inside the node. -/
theorem IsUnionOf.exists_mem (h : IsUnionOf node main) :
    ∃ items, (Text.ofString "anyOf", Value.array items) ∈ node ∧ Value.object main ∈ items := by
  obtain ⟨null, t, -, -, -, hany | hany⟩ := h
  · exact ⟨_, Fields.mem_of_get? hany, by simp⟩
  · exact ⟨_, Fields.mem_of_get? hany, by simp⟩

/-- Lifting keeps names distinct. -/
theorem distinct_lift (h : node.Distinct) : Fields.Distinct (liftNullUnion node) := by
  by_cases hunion : IsNullUnion node
  · obtain ⟨main, hmain⟩ := hunion
    rw [lift_of_isUnionOf hmain]
    exact ((h.update main).set _ _).erase _
  · rwa [lift_of_not_isNullUnion hunion]

end Lift

section NonStandard

/-- Dropping what is not in the standard leaves the fields of other names. -/
theorem dropNonStandard_eq_filter (node : Node) :
    dropNonStandard node = node.filter fun f ↦ f.1 ∉ nonStandardFields := by
  simp only [dropNonStandard, nonStandardFields, List.foldl_cons, List.foldl_nil,
    Fields.erase_eq_filter, List.filter_filter]
  refine List.filter_congr fun f _ ↦ ?_
  simp only [List.mem_cons, List.not_mem_nil, or_false, not_or, Bool.decide_and, Bool.and_comm]

/-- Dropping what is not in the standard leaves the other names. -/
theorem names_dropNonStandard (node : Node) :
    Fields.names (dropNonStandard node) = node.names.filter (· ∉ nonStandardFields) := by
  rw [dropNonStandard_eq_filter, Fields.names, Fields.names, List.filter_map]
  rfl

/-- Other names get what they got. -/
theorem get?_dropNonStandard (node : Node) {name : Text} (h : name ∉ nonStandardFields) :
    Fields.get? (dropNonStandard node) name = node.get? name := by
  rw [dropNonStandard_eq_filter]
  exact Fields.get?_filter fun _ ↦ decide_eq_true h

/-- Values can be changed before fields are dropped or behind that. -/
theorem dropNonStandard_mapNamed (f : Text → Json → Json) (node : Node) :
    dropNonStandard (node.mapNamed f) = Fields.mapNamed f (dropNonStandard node) := by
  simp only [dropNonStandard, nonStandardFields, List.foldl_cons, List.foldl_nil,
    Fields.erase_mapNamed]

/-- There is nothing left to be dropped again. -/
theorem dropNonStandard_dropNonStandard (node : Node) :
    dropNonStandard (dropNonStandard node) = dropNonStandard node := by
  rw [dropNonStandard_eq_filter, dropNonStandard_eq_filter, List.filter_filter]
  simp only [Bool.and_self]

end NonStandard

end Schema

end ApiTools
