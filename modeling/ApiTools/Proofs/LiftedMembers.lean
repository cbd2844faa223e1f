import ApiTools.Proofs.Places

/-!
# What lifting keeps of a member

A null union that is lifted becomes nullable and takes over every field of its other member with
its value but one: an `anyOf` of the member's own is lost, since the field of that name is taken
away last. The node's own fields stay with their values and in their places. So no constraint of
the member is lost exactly if it has no `anyOf` (`Lifts.keepsMember_iff`). Where null unions are
lifted in a whole tree, this holds at every node that is visited (`lifts_everywhere_iff`), and
these are all the schemas of the tree that is left (`reaches_everywhere_iff`).
-/

namespace ApiTools

namespace Schema

variable {node main root after : Node} {path : List Step} {finish : Text → Json → Json}

/-- The node that a null union of a member becomes, when lifting is followed by a change of the
values of its fields. Of the member it has every field but `anyOf`. -/
structure Lifts (finish : Text → Json → Json) (node main after : Node) : Prop where
  nullable : after.get? "nullable" = some (.bool true)
  member : ∀ (name : Text) v, name ≠ "nullable" → main.get? name = some v →
    (after.get? name = some (finish name v) ↔ name ≠ "anyOf")
  own : ∀ (name : Text), name ≠ "nullable" → name ≠ "anyOf" → name ∉ main.names →
    after.get? name = (node.get? name).map (finish name)
  /-- The names of the node stay in their order, and new ones follow. -/
  names : ∃ added, after.names = node.names.filter (· ≠ Text.ofString "anyOf") ++ added ∧
    ∀ name ∈ added, (name = "nullable" ∨ name ∈ main.names) ∧ name ∉ node.names

/-- No constraint of a member is lost: a node has all its fields, but says itself whether it is
nullable. -/
def KeepsMember (finish : Text → Json → Json) (main after : Node) : Prop :=
  ∀ (name : Text) v, name ≠ "nullable" → main.get? name = some v →
    after.get? name = some (finish name v)

/-- The schemas of a tree by the paths that lead to them through properties and items, where a
change of each node goes before the look at its fields. -/
inductive Reaches (change : Node → Node) (root : Node) : List Step → Node → Prop where
  | root : Reaches change root [] root
  | property {path : List Step} {node schemas child : Node} {name : Text} :
    Reaches change root path node → (change node).get? "properties" = some (.object schemas) →
    schemas.get? name = some (.object child) →
    Reaches change root (path ++ [.field "properties", .field name]) child
  | items {path : List Step} {node child : Node} :
    Reaches change root path node → (change node).get? "items" = some (.object child) →
    Reaches change root (path ++ [.field "items"]) child

section Lift

/-- No constraint of the member is lost exactly if it has no `anyOf` of its own. -/
theorem Lifts.keepsMember_iff (h : Lifts finish node main after) :
    KeepsMember finish main after ↔ Text.ofString "anyOf" ∉ main.names := by
  constructor
  · intro hkeeps hmem
    obtain ⟨v, hv⟩ : ∃ v, main.get? "anyOf" = some v := by
      rw [← Option.ne_none_iff_exists', Ne, Fields.get?_eq_none_iff, not_not]
      exact hmem
    exact (h.member _ v (by decide) hv).mp (hkeeps _ v (by decide) hv) rfl
  · intro hany name v hnullable hv
    refine (h.member name v hnullable hv).mpr ?_
    rintro rfl
    exact hany (List.mem_map.mpr ⟨_, Fields.mem_of_get? hv, rfl⟩)

/-- After lifting a field comes from the member if it has one of the name, and else from the
node. -/
theorem get?_lift (h : IsUnionOf node main) (hmain : main.Distinct) (name : Text) :
    (liftNullUnion node).get? name =
      if Text.ofString "anyOf" = name then none
      else if Text.ofString "nullable" = name then some (.bool true)
      else (main.get? name).or (node.get? name) := by
  rw [lift_of_isUnionOf h, Fields.get?_erase, Fields.get?_set, Fields.get?_update,
    Fields.get?_perm (List.reverse_perm main) hmain]

private theorem lifts_mapNamed (finish : Text → Json → Json) (h : IsUnionOf node main)
    (hmain : main.Distinct) (hfinish : finish "nullable" (.bool true) = .bool true) :
    Lifts finish node main (Fields.mapNamed finish (liftNullUnion node)) where
  nullable := by
    rw [Fields.get?_mapNamed, get?_lift h hmain, if_neg (by decide), if_pos rfl, Option.map_some,
      hfinish]
  member name v hnullable hv := by
    rw [Fields.get?_mapNamed, get?_lift h hmain, hv, if_neg (Ne.symm hnullable), Option.some_or]
    by_cases hany : name = "anyOf"
    · rw [if_pos hany.symm]
      exact iff_of_false nofun (not_not.mpr hany)
    · rw [if_neg (Ne.symm hany)]
      exact iff_of_true rfl hany
  own name hnullable hany hname := by
    rw [Fields.get?_mapNamed, get?_lift_of_isUnionOf h hname hnullable hany]
  names := by
    rw [Fields.names_mapNamed]
    exact names_lift_of_isUnionOf h

/-- Lifting alone leaves the values of the fields. -/
theorem lifts_lift (h : IsUnionOf node main) (hmain : main.Distinct) :
    Lifts (fun _ v ↦ v) node main (liftNullUnion node) := by
  have hlifts := lifts_mapNamed (fun _ v ↦ v) h hmain rfl
  rwa [Fields.mapNamed_eq_self fun _ _ ↦ rfl] at hlifts

end Lift

section Everywhere

open Value (DistinctNames)

/-- The schemas of a repaired tree are what the visited nodes have become. -/
theorem reaches_everywhere_iff (r : Repair) :
    Reaches id (r.everywhere root) path after ↔
      ∃ node, Reaches r.apply root path node ∧ after = r.everywhere node := by
  constructor
  · intro h
    induction h with
    | root => exact ⟨root, .root, rfl⟩
    | property _ hproperties hchild ih =>
      obtain ⟨node, hnode, rfl⟩ := ih
      rw [id, r.everywhere_eq, Fields.get?_mapNamed, Option.map_eq_some_iff] at hproperties
      obtain ⟨v, hv, hobject⟩ := hproperties
      cases v with
      | object schemas =>
        cases hobject
        rw [Fields.get?_mapValues, Option.map_eq_some_iff] at hchild
        obtain ⟨w, hw, hobject⟩ := hchild
        cases w with
        | object child =>
          cases hobject
          exact ⟨child, .property hnode hv hw, rfl⟩
        | _ => cases hobject
      | _ => cases hobject
    | items _ hitems ih =>
      obtain ⟨node, hnode, rfl⟩ := ih
      rw [id, r.everywhere_eq, Fields.get?_mapNamed, Option.map_eq_some_iff] at hitems
      obtain ⟨v, hv, hobject⟩ := hitems
      cases v with
      | object child =>
        cases hobject
        exact ⟨child, .items hnode hv, rfl⟩
      | _ => cases hobject
  · rintro ⟨node, hnode, rfl⟩
    induction hnode with
    | root => exact .root
    | @property path node schemas child name _ hproperties hchild ih =>
      have hmapped : Fields.get? (schemas.mapValues (Spec.onObject r.everywhere)) name =
          some (.object (r.everywhere child)) := by
        rw [Fields.get?_mapValues, hchild]
        rfl
      refine .property ih ?_ hmapped
      rw [id, r.everywhere_eq, Fields.get?_mapNamed, hproperties]
      rfl
    | items _ hitems ih =>
      refine .items ih ?_
      rw [id, r.everywhere_eq, Fields.get?_mapNamed, hitems]
      rfl

/-- Lifting keeps the names of a node distinct, at all depths. -/
theorem distinctNames_lift (h : (Value.object node : Json).DistinctNames) :
    (Value.object (liftNullUnion node) : Json).DistinctNames :=
  .object (distinct_lift (Value.distinctNames_object_iff.mp h).1) fun _ hf ↦
    Spec.Place.distinctNames_of_mem_lift h hf

/-- The names of visited nodes are distinct. -/
theorem Reaches.distinctNames (h : Reaches liftNullUnion root path node)
    (hroot : (Value.object root : Json).DistinctNames) :
    (Value.object node : Json).DistinctNames := by
  induction h with
  | root => exact hroot
  | property _ hproperties hchild ih =>
    have hnode := (Value.distinctNames_object_iff.mp (distinctNames_lift ih)).2
    have hschemas := hnode _ (Fields.mem_of_get? hproperties)
    exact (Value.distinctNames_object_iff.mp hschemas).2 _ (Fields.mem_of_get? hchild)
  | items _ hitems ih =>
    have hnode := (Value.distinctNames_object_iff.mp (distinctNames_lift ih)).2
    exact hnode _ (Fields.mem_of_get? hitems)

/-- The names of the member of a null union are distinct if those of the node are. -/
theorem IsUnionOf.distinct (h : IsUnionOf node main)
    (hnode : (Value.object node : Json).DistinctNames) : main.Distinct := by
  obtain ⟨items, hitems, hmain⟩ := h.exists_mem
  have hfields := (Value.distinctNames_object_iff.mp hnode).2
  have harray := Value.distinctNames_array_iff.mp (hfields _ hitems)
  exact (Value.distinctNames_object_iff.mp (harray _ hmain)).1

/-- Lifting a null union makes the node nullable and keeps all other fields of both with their
values, and those of the node in their places, but for an `anyOf` of the member's own: no constraint
of the member is lost exactly if it has none. In a whole tree this holds wherever a null union is
visited, with the schemas further down lifted as well. -/
theorem lifts_everywhere_iff (hroot : (Value.object root : Json).DistinctNames) :
    (∀ main, IsUnionOf root main → Lifts (fun _ v ↦ v) root main (liftNullUnion root) ∧
      (KeepsMember (fun _ v ↦ v) main (liftNullUnion root) ↔
        Text.ofString "anyOf" ∉ main.names)) ∧
    ∀ path node main, Reaches liftNullUnion root path node → IsUnionOf node main →
      ∃ after, Reaches id (nullUnions.everywhere root) path after ∧
        Lifts nullUnions.below node main after ∧
        (KeepsMember nullUnions.below main after ↔ Text.ofString "anyOf" ∉ main.names) := by
  constructor
  · intro main hunion
    have hlifts := lifts_lift hunion (hunion.distinct hroot)
    exact ⟨hlifts, hlifts.keepsMember_iff⟩
  · intro path node main hnode hunion
    have hlifts : Lifts nullUnions.below node main (nullUnions.everywhere node) := by
      rw [nullUnions.everywhere_eq]
      exact lifts_mapNamed _ hunion (hunion.distinct (hnode.distinctNames hroot)) rfl
    exact ⟨_, (reaches_everywhere_iff nullUnions).mpr ⟨node, hnode, rfl⟩, hlifts,
      hlifts.keepsMember_iff⟩

/-- Bounded texts, and a titled null union of them. -/
private def boundedMember : Node := [("type", .string "string"), ("maxLength", .int 8)]

private def boundedItems : Node :=
  [("title", .string "tag"), ("anyOf", .array [.object boundedMember,
    .object [("type", .string "null")]])]

private def listUnion : Node :=
  [("anyOf", .array [.object [("type", .string "null")],
    .object [("type", .string "array"), ("items", .object boundedItems)]])]

/-- A schema whose one property is a null union of lists of these. -/
private def listedRoot : Node :=
  [("type", .string "object"), ("properties", .object [("tags", .object listUnion)])]

/-- The items are visited where lifting the property has put them, and keep the bound. -/
theorem lifts_everywhere_iff_listed :
    (Value.object listedRoot : Json).DistinctNames ∧
    Reaches liftNullUnion listedRoot [.field "properties", .field "tags", .field "items"]
      boundedItems ∧
    IsUnionOf boundedItems boundedMember ∧
    ∃ after, Reaches id (nullUnions.everywhere listedRoot)
        [.field "properties", .field "tags", .field "items"] after ∧
      after.get? "maxLength" = some (.int 8) ∧ after.get? "title" = some (.string "tag") ∧
      after.get? "nullable" = some (.bool true) := by
  have hread : Json.parse? (Json.write .compact (.object listedRoot)) =
      some (.object listedRoot) := by decide +kernel
  have hproperties : Fields.get? (liftNullUnion listedRoot) "properties" =
      some (.object [("tags", .object listUnion)]) := by decide +kernel
  have hitems : Fields.get? (liftNullUnion listUnion) "items" = some (.object boundedItems) := by
    decide +kernel
  have hreaches : Reaches liftNullUnion listedRoot
      [.field "properties", .field "tags", .field "items"] boundedItems :=
    .items (.property .root hproperties rfl) hitems
  have hunion : IsUnionOf boundedItems boundedMember :=
    nullUnion?_eq_some_iff.mp (by decide +kernel)
  have hdistinct := (Json.documentProperty_distinctNames _).of_parse? hread
  obtain ⟨after, hafter, hlifts, hkeeps⟩ :=
    (lifts_everywhere_iff hdistinct).2 _ _ _ hreaches hunion
  have hbound := hkeeps.mpr (by decide) "maxLength" (.int 8) (by decide) (by decide)
  have htitle := hlifts.own "title" (by decide) (by decide) (by decide)
  exact ⟨hdistinct, hreaches, hunion, after, hafter, hbound, htitle, hlifts.nullable⟩

/-- A member with a choice of its own, a null union of it, and what becomes of that. -/
private def choiceMember : Node :=
  [("type", .string "object"), ("anyOf", .array [.object [("required", .array [.string "a"])],
    .object [("required", .array [.string "b"])]])]

private def choiceUnion : Node :=
  [("anyOf", .array [.object choiceMember, .object [("type", .string "null")]])]

private def choiceLifted : Node := [("type", .string "object"), ("nullable", .bool true)]

/-- A member with an `anyOf` of its own loses it, and what is left allows what that forbids. -/
theorem lift_loses_choice : IsUnionOf choiceUnion choiceMember ∧
    liftNullUnion choiceUnion = choiceLifted ∧
    ¬KeepsMember (fun _ v ↦ v) choiceMember (liftNullUnion choiceUnion) := by
  have hunion : IsUnionOf choiceUnion choiceMember :=
    nullUnion?_eq_some_iff.mp (by decide +kernel)
  have hlift : liftNullUnion choiceUnion = choiceLifted := by decide +kernel
  refine ⟨hunion, hlift, fun hkeeps ↦ ?_⟩
  have hany := hkeeps "anyOf" _ (by decide) rfl
  rw [hlift] at hany
  cases hany

end Everywhere

end Schema

end ApiTools
