import ApiTools.Proofs.Places

/-!
# How deep repairs go

A repair of a whole tree changes a node before it looks for the schemas to go on to, so these may
come from inside a list that the change has taken away. Lifting a null union moves a member's fields
up by two levels and adds a leaf, so no node gets deeper, and each schema that the repair goes on to
is smaller and less deep than the node was before (`Repair.Visits.size_lt`,
`Repair.Visits.depth_lt`). Therefore the repair ends, in a tree that is no deeper, and never nests
more calls than the tree has levels (`lifting_ends_within_depth`).
-/

namespace ApiTools

namespace Value

variable {ε : Type} {n : Nat}

private theorem depth_pos (v : Value ε) : 0 < v.depth := by
  cases v with
  | array items => rw [depth]; omega
  | object fields => rw [depth]; omega
  | _ => exact Nat.one_pos

private theorem itemsDepth_le_iff {items : List (Value ε)} :
    itemsDepth items ≤ n ↔ ∀ v ∈ items, v.depth ≤ n := by
  induction items with
  | nil => simp [itemsDepth]
  | cons v rest ih => rw [itemsDepth, Nat.max_le, ih, List.forall_mem_cons]

private theorem fieldsDepth_le_iff {fields : Fields (Value ε)} :
    fieldsDepth fields ≤ n ↔ ∀ f ∈ fields, f.2.depth ≤ n := by
  induction fields with
  | nil => simp [fieldsDepth]
  | cons f rest ih => rw [fieldsDepth, Nat.max_le, ih, List.forall_mem_cons]

private theorem depth_lt_of_mem_items {items : List (Value ε)} {v : Value ε} (h : v ∈ items) :
    v.depth < (array items).depth := by
  have hitem := itemsDepth_le_iff.mp (Nat.le_refl (itemsDepth items)) v h
  rw [depth]
  omega

private theorem depth_lt_of_mem_fields {fields : Fields (Value ε)} {f : Text × Value ε}
    (h : f ∈ fields) :
    f.2.depth < (object fields).depth := by
  have hfield := fieldsDepth_le_iff.mp (Nat.le_refl (fieldsDepth fields)) f h
  rw [depth]
  omega

/-- An object whose values are changed gets no deeper if none of them does. -/
theorem depth_mapNamed_le {f : Text → Value ε → Value ε} {fields : Fields (Value ε)}
    (h : ∀ g ∈ fields, (f g.1 g.2).depth ≤ g.2.depth) :
    (object (fields.mapNamed f)).depth ≤ (object fields).depth := by
  have hfields : fieldsDepth (fields.mapNamed f) ≤ fieldsDepth fields := by
    refine fieldsDepth_le_iff.mpr fun g hg ↦ ?_
    obtain ⟨v, hv, hvalue⟩ := Fields.mem_mapNamed.mp hg
    have hold := fieldsDepth_le_iff.mp (Nat.le_refl (fieldsDepth fields)) _ hv
    have hnew := h _ hv
    rw [hvalue] at hnew
    exact Nat.le_trans hnew hold
  rw [depth, depth]
  omega

end Value

namespace Schema

open Spec (onObject)
open Value (depth_lt_of_mem_fields depth_lt_of_mem_items fieldsDepth_le_iff)

/-- A null union gets no deeper by lifting: its member stands two levels below it. -/
theorem depth_lift_le (node : Node) :
    (Value.object (liftNullUnion node) : Json).depth ≤ (Value.object node : Json).depth := by
  have hfields : Value.fieldsDepth (liftNullUnion node) ≤ Value.fieldsDepth node := by
    refine fieldsDepth_le_iff.mpr fun f hf ↦ ?_
    have hown : ∀ g ∈ node, g.2.depth ≤ Value.fieldsDepth node :=
      fieldsDepth_le_iff.mp (Nat.le_refl _)
    rcases mem_of_mem_lift hf with hmem | rfl | ⟨main, hmain, hmem⟩
    · exact hown f hmem
    · -- No union, no such field; and the `anyOf` of a union is at least as deep as the field.
      by_cases hunion : IsNullUnion node
      · obtain ⟨main, hmain⟩ := hunion
        obtain ⟨items, hany, -⟩ := hmain.exists_mem
        have hpos := (Value.array items : Json).depth_pos
        exact Nat.le_trans hpos (hown _ hany)
      · rw [lift_of_not_isNullUnion hunion] at hf
        exact hown _ hf
    · obtain ⟨items, hany, hitem⟩ := hmain.exists_mem
      have hmember := depth_lt_of_mem_fields hmem
      have hlist := depth_lt_of_mem_items hitem
      have hdepth := hown _ hany
      dsimp only at hdepth
      omega
  rw [Value.depth, Value.depth]
  omega

namespace Repair

variable {r : Repair} {node child : Node} {name : Text} {v : Json}

/-- The schemas that the repair of a tree goes on to from a node, found in what the repair of the
node has left. -/
inductive Visits (r : Repair) (node : Node) : Node → Prop where
  | property {schemas child : Node} {name : Text} :
    (Text.ofString "properties", .object schemas) ∈ r.apply node →
    (name, .object child) ∈ schemas → Visits r node child
  | items {child : Node} : (Text.ofString "items", .object child) ∈ r.apply node →
    Visits r node child

/-- A repair that makes no node deeper. -/
def KeepsDepth (r : Repair) : Prop :=
  ∀ node, (Value.object (r.apply node) : Json).depth ≤ (Value.object node : Json).depth

/-- A schema that is visited is smaller than the node was before its repair. -/
theorem Visits.size_lt (h : r.Visits node child) :
    (Value.object child : Json).size < (Value.object node : Json).size := by
  have hnode := r.size_le node
  cases h with
  | property hproperties hchild =>
    have hschema := size_le_of_mem hchild
    have hfield := size_le_of_mem hproperties
    rw [Value.size] at hfield ⊢
    rw [Value.size] at hschema ⊢
    omega
  | items hitems =>
    have hfield := size_le_of_mem hitems
    rw [Value.size] at hfield ⊢
    rw [Value.size]
    omega

/-- A schema that is visited is less deep than the node was before its repair. -/
theorem Visits.depth_lt (hr : r.KeepsDepth) (h : r.Visits node child) :
    (Value.object child : Json).depth < (Value.object node : Json).depth := by
  have hnode := hr node
  cases h with
  | property hproperties hchild =>
    have hschema := depth_lt_of_mem_fields hchild
    have hfield := depth_lt_of_mem_fields hproperties
    dsimp only at hschema hfield
    omega
  | items hitems =>
    have hfield := depth_lt_of_mem_fields hitems
    dsimp only at hfield
    omega

/-- There is no endless descent through visited schemas. -/
theorem wellFounded_visits (r : Repair) : WellFounded fun child node ↦ r.Visits node child :=
  Subrelation.wf Visits.size_lt (measure fun node : Node ↦ (Value.object node : Json).size).wf

/-- A field that has been repaired further down is no deeper if the visited schemas are not. -/
theorem depth_below_le (hfield : (name, v) ∈ r.apply node)
    (hchildren : ∀ child, r.Visits node child →
      (Value.object (r.everywhere child) : Json).depth ≤ (Value.object child : Json).depth) :
    (r.below name v).depth ≤ v.depth := by
  unfold below
  split
  · next hname =>
    subst hname
    cases v with
    | object schemas =>
      have hschemas : ∀ s ∈ schemas, (onObject r.everywhere s.2).depth ≤ s.2.depth := by
        rintro ⟨property, schema⟩ hs
        cases schema with
        | object child => exact hchildren child (.property hfield hs)
        | _ => exact Nat.le_refl _
      exact @Value.depth_mapNamed_le _ (fun _ ↦ onObject r.everywhere) schemas hschemas
    | _ => exact Nat.le_refl _
  · split
    · next hname =>
      subst hname
      cases v with
      | object child => exact hchildren child (.items hfield)
      | _ => exact Nat.le_refl _
    · exact Nat.le_refl _

/-- A tree gets no deeper by the repair of all its schemas. -/
theorem depth_everywhere_le (hr : r.KeepsDepth) (node : Node) :
    (Value.object (r.everywhere node) : Json).depth ≤ (Value.object node : Json).depth := by
  induction node using r.wellFounded_visits.induction with
  | _ node ih =>
    rw [everywhere_eq]
    refine Nat.le_trans (Value.depth_mapNamed_le fun f hf ↦ ?_) (hr node)
    exact depth_below_le hf ih

section Calls

/-- A value behind a call on it, which is made only for a schema. -/
def called? (call : Node → Option Node) : Json → Option Json
  | .object child => (call child).map .object
  | v => some v

/-- A field behind the calls on the schemas that it leads to. -/
def calledBelow? (call : Node → Option Node) (name : Text) (v : Json) : Option Json :=
  if name = "properties" then
    match v with
    | .object schemas => (schemas.mapM fun s ↦ (called? call s.2).map (s.1, ·)).map .object
    | v => some v
  else if name = "items" then called? call v
  else some v

/-- The repair of a tree by a recursion that may nest so many calls and no more: where it needs one
more, there is no result. -/
def within (r : Repair) : (calls : Nat) → Node → Option Node
  | 0, _ => none
  | calls + 1, node =>
    (r.apply node).mapM fun f ↦ (calledBelow? (r.within calls) f.1 f.2).map (f.1, ·)

variable {call : Node → Option Node}

private theorem mapM_named {fields : Node} {f : Text → Json → Json} {f? : Text → Json → Option Json}
    (h : ∀ g ∈ fields, f? g.1 g.2 = some (f g.1 g.2)) :
    (fields.mapM fun g ↦ (f? g.1 g.2).map (g.1, ·)) = some (fields.mapNamed f) := by
  induction fields with
  | nil => rfl
  | cons g rest ih =>
    obtain ⟨hg, hrest⟩ := List.forall_mem_cons.mp h
    rw [List.mapM_cons, hg, ih hrest]
    rfl

/-- Calls that repair the visited schemas repair the field. -/
theorem calledBelow?_eq (hfield : (name, v) ∈ r.apply node)
    (hcall : ∀ child, r.Visits node child → call child = some (r.everywhere child)) :
    calledBelow? call name v = some (r.below name v) := by
  unfold calledBelow? below
  split
  · next hname =>
    subst hname
    cases v with
    | object schemas =>
      have hschemas : ∀ s ∈ schemas, called? call s.2 = some (onObject r.everywhere s.2) := by
        rintro ⟨property, schema⟩ hs
        cases schema with
        | object child =>
          show (call child).map Value.object = _
          rw [hcall child (.property hfield hs)]
          rfl
        | _ => rfl
      have hmapped : (schemas.mapM fun s ↦ (called? call s.2).map (s.1, ·)) =
          some (Fields.mapValues (onObject r.everywhere) schemas) :=
        @mapM_named schemas (fun _ ↦ onObject r.everywhere) (fun _ ↦ called? call) hschemas
      show Option.map Value.object _ = _
      rw [hmapped]
      rfl
    | _ => rfl
  · split
    · next hname =>
      subst hname
      cases v with
      | object child =>
        show (call child).map Value.object = _
        rw [hcall child (.items hfield)]
        rfl
      | _ => rfl
    · rfl

private theorem mapM_eq_none_iff {α β : Type} {f : α → Option β} {l : List α} :
    l.mapM f = none ↔ ∃ a ∈ l, f a = none := by
  induction l with
  | nil => simp
  | cons a rest ih =>
    simp only [List.mapM_cons, List.mem_cons, exists_eq_or_imp, ← ih]
    cases f a with
    | none => simp
    | some b => cases rest.mapM f <;> simp

private theorem called?_eq_none_iff :
    called? call v = none ↔ ∃ child, v = .object child ∧ call child = none := by
  cases v with
  | object fields => simp [called?]
  | _ => simp [called?]

private theorem calledBelow?_eq_none_iff : calledBelow? call name v = none ↔
    (name = "properties" ∧ ∃ (schemas : Node) (property : Text) (child : Node),
      v = .object schemas ∧ (property, .object child) ∈ schemas ∧ call child = none) ∨
    (name = "items" ∧ ∃ child, v = .object child ∧ call child = none) := by
  constructor
  · intro h
    unfold calledBelow? at h
    split at h
    · next hname =>
      cases v with
      | object schemas =>
        rw [Option.map_eq_none_iff, mapM_eq_none_iff] at h
        obtain ⟨⟨property, schema⟩, hs, h⟩ := h
        rw [Option.map_eq_none_iff, called?_eq_none_iff] at h
        obtain ⟨child, rfl, hnone⟩ := h
        exact .inl ⟨hname, schemas, property, child, rfl, hs, hnone⟩
      | _ => cases h
    · split at h
      · next hname => exact .inr ⟨hname, called?_eq_none_iff.mp h⟩
      · cases h
  · rintro (⟨rfl, schemas, property, child, rfl, hs, hnone⟩ | ⟨rfl, hitems⟩)
    · rw [calledBelow?, if_pos rfl, Option.map_eq_none_iff, mapM_eq_none_iff]
      refine ⟨_, hs, Option.map_eq_none_iff.mpr ?_⟩
      exact called?_eq_none_iff.mpr ⟨child, rfl, hnone⟩
    · unfold calledBelow?
      rw [if_neg (by decide), if_pos rfl]
      exact called?_eq_none_iff.mpr hitems

/-- The calls that are nested in one are those on the visited schemas: there is no result exactly if
one of these has none. -/
theorem within_succ_eq_none_iff {calls : Nat} : r.within (calls + 1) node = none ↔
    ∃ child, r.Visits node child ∧ r.within calls child = none := by
  rw [within, mapM_eq_none_iff]
  simp only [Option.map_eq_none_iff, calledBelow?_eq_none_iff]
  constructor
  · rintro ⟨⟨name, v⟩, hfield, ⟨rfl, schemas, property, child, rfl, hs, hnone⟩ |
      ⟨rfl, child, rfl, hnone⟩⟩
    · exact ⟨child, .property hfield hs, hnone⟩
    · exact ⟨child, .items hfield, hnone⟩
  · rintro ⟨child, hvisit, hnone⟩
    cases hvisit with
    | @property schemas _ name hproperties hchild =>
      exact ⟨_, hproperties, .inl ⟨rfl, schemas, name, child, rfl, hchild, hnone⟩⟩
    | items hitems => exact ⟨_, hitems, .inr ⟨rfl, child, rfl, hnone⟩⟩

/-- As many nested calls as the tree has levels are enough. -/
theorem within_eq (hr : r.KeepsDepth) {calls : Nat}
    (h : (Value.object node : Json).depth ≤ calls) :
    r.within calls node = some (r.everywhere node) := by
  induction calls generalizing node with
  | zero =>
    have hpos := (Value.object node : Json).depth_pos
    omega
  | succ calls ih =>
    rw [within, everywhere_eq]
    refine mapM_named fun f hf ↦ calledBelow?_eq hf fun child hchild ↦ ih ?_
    have hlt := hchild.depth_lt hr
    omega

end Calls

end Repair

/-- The lifting of null unions everywhere goes on from a node to schemas that are smaller and less
deep than the node was before its own union was lifted, and so to finitely many one below the other.
What it leaves is no deeper than the tree was. As a recursion it nests its calls on these schemas,
and never more calls than the tree has levels. -/
theorem lifting_ends_within_depth :
    (WellFounded fun child node ↦ nullUnions.Visits node child) ∧
    ∀ node,
      (∀ child, nullUnions.Visits node child →
        (Value.object child : Json).size < (Value.object node : Json).size ∧
          (Value.object child : Json).depth < (Value.object node : Json).depth) ∧
      (Value.object (nullUnions.everywhere node) : Json).depth ≤ (Value.object node : Json).depth ∧
      (∀ calls, nullUnions.within (calls + 1) node = none ↔
        ∃ child, nullUnions.Visits node child ∧ nullUnions.within calls child = none) ∧
      ∀ calls, (Value.object node : Json).depth ≤ calls →
        nullUnions.within calls node = some (nullUnions.everywhere node) := by
  have hkeeps : nullUnions.KeepsDepth := depth_lift_le
  refine ⟨nullUnions.wellFounded_visits, fun node ↦ ⟨fun child hchild ↦ ?_, ?_, ?_, ?_⟩⟩
  · exact ⟨hchild.size_lt, hchild.depth_lt hkeeps⟩
  · exact nullUnions.depth_everywhere_le hkeeps node
  · exact fun calls ↦ Repair.within_succ_eq_none_iff
  · exact fun calls hdepth ↦ Repair.within_eq hkeeps hdepth

/-- What texts are, a null union of lists of them, and what becomes of that. -/
private def textItems : Node := [("type", .string "string")]

private def textsUnion : Node :=
  [("anyOf", .array [.object [("type", .string "null")],
    .object [("type", .string "array"), ("items", .object textItems)]])]

private def textsLifted : Node :=
  [("type", .string "array"), ("items", .object textItems), ("nullable", .bool true)]

/-- What the lists hold is visited where lifting has put it. -/
theorem lifting_ends_within_depth_lists :
    nullUnions.Visits textsUnion textItems ∧
    (Value.object textItems : Json).size < (Value.object textsUnion : Json).size ∧
    (Value.object textItems : Json).depth < (Value.object textsUnion : Json).depth ∧
    (Value.object textsUnion : Json).depth ≤ 5 ∧
    nullUnions.within 5 textsUnion = some (nullUnions.everywhere textsUnion) := by
  have hitems : (Text.ofString "items", Value.object textItems) ∈ liftNullUnion textsUnion := by
    decide +kernel
  have hdepth : (Value.object textsUnion : Json).depth ≤ 5 := by decide +kernel
  obtain ⟨-, hall⟩ := lifting_ends_within_depth
  obtain ⟨hchildren, -, -, hcalls⟩ := hall textsUnion
  obtain ⟨hsize, hless⟩ := hchildren textItems (.items hitems)
  exact ⟨.items hitems, hsize, hless, hdepth, hcalls 5 hdepth⟩

example : nullUnions.within 1 textsUnion = none ∧
    nullUnions.within 2 textsUnion = some textsLifted := by
  decide +kernel

end Schema

end ApiTools
