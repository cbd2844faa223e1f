import Mathlib.Data.List.Forall2
import ApiTools.Json.Writer
import ApiTools.Proofs.DistinctNames

/-!
# The order of fields

Fields of distinct names have one order by their names, in whatever order they come
(`Fields.sorted_congr`). Two values become the same when the fields of all their objects are
ordered exactly if they are the same data, that is, if they differ in the order of fields alone
(`Value.sortFields_eq_iff`).
-/

namespace ApiTools

namespace Text

variable {t u w : Text} {c d : CodePoint}

private theorem precedes_cons_iff :
    precedes (c :: t) (d :: u) = true ↔ c.val < d.val ∨ (c = d ∧ precedes t u = true) := by
  simp [precedes]

private theorem precedes_total (t u : Text) : (precedes t u || precedes u t) = true := by
  induction t generalizing u with
  | nil => simp [precedes]
  | cons c t ih =>
    cases u with
    | nil => simp [precedes]
    | cons d u =>
      rw [Bool.or_eq_true, precedes_cons_iff, precedes_cons_iff]
      rcases Nat.lt_trichotomy c.val d.val with hlt | heq | hlt
      · exact .inl (.inl hlt)
      · have hcd : c = d := by
          cases c
          cases d
          simpa using heq
        subst hcd
        have htu := ih u
        rw [Bool.or_eq_true] at htu
        exact htu.imp (fun h ↦ .inr ⟨rfl, h⟩) fun h ↦ .inr ⟨rfl, h⟩
      · exact .inr (.inl hlt)

private theorem precedes_trans (htu : precedes t u = true) (huw : precedes u w = true) :
    precedes t w = true := by
  induction t generalizing u w with
  | nil => simp [precedes]
  | cons c t ih =>
    cases u with
    | nil => simp [precedes] at htu
    | cons d u =>
      cases w with
      | nil => simp [precedes] at huw
      | cons e w =>
        rw [precedes_cons_iff] at htu huw ⊢
        rcases htu with hcd | ⟨rfl, htu⟩
        · rcases huw with hde | ⟨rfl, -⟩
          · exact .inl (Nat.lt_trans hcd hde)
          · exact .inl hcd
        · exact huw.imp_right fun ⟨hce, huw⟩ ↦ ⟨hce, ih htu huw⟩

private theorem precedes_antisymm (htu : precedes t u = true) (hut : precedes u t = true) : t =
    u := by
  induction t generalizing u with
  | nil =>
    cases u with
    | nil => rfl
    | cons d u => simp [precedes] at hut
  | cons c t ih =>
    cases u with
    | nil => simp [precedes] at htu
    | cons d u =>
      rw [precedes_cons_iff] at htu hut
      rcases htu with hlt | ⟨rfl, htu⟩
      · rcases hut with hgt | ⟨rfl, -⟩
        · exact absurd hgt (Nat.lt_asymm hlt)
        · exact absurd hlt (Nat.lt_irrefl _)
      · rcases hut with hgt | ⟨-, hut⟩
        · exact absurd hgt (Nat.lt_irrefl _)
        · rw [ih htu hut]

end Text

namespace Fields

variable {α β : Type} {fields others : Fields α}

/-- Fields in the order of their names. -/
def sorted (fields : Fields α) : Fields α := fields.mergeSort fun f g ↦ f.1.precedes g.1

private theorem sorted_perm (fields : Fields α) : fields.sorted.Perm fields := List.mergeSort_perm _
    _

private theorem pairwise_sorted (fields : Fields α) :
    fields.sorted.Pairwise fun f g ↦ f.1.precedes g.1 = true := by
  apply List.pairwise_mergeSort
  · exact fun f g h ↦ Text.precedes_trans
  · exact fun f g ↦ Text.precedes_total f.1 g.1

/-- The order of fields with distinct names does not depend on the order in which they come. -/
theorem sorted_congr (h : fields.Distinct) (hperm : fields.Perm others) :
    fields.sorted = others.sorted := by
  have hsorted : fields.sorted.Perm others.sorted :=
    (sorted_perm fields).trans (hperm.trans (sorted_perm others).symm)
  refine hsorted.eq_of_pairwise ?_ (pairwise_sorted fields) (pairwise_sorted others)
  intro f g hf hg hfg hgf
  have hname : f.1 = g.1 := Text.precedes_antisymm hfg hgf
  have hmem : f ∈ fields := (sorted_perm fields).mem_iff.mp hf
  have hmem' : g ∈ fields := hperm.mem_iff.mpr ((sorted_perm others).mem_iff.mp hg)
  have hget := (get?_eq_some_iff h f.1 f.2).mpr hmem
  rw [hname, (get?_eq_some_iff h g.1 g.2).mpr hmem', Option.some.injEq] at hget
  exact Prod.ext hname hget.symm

/-- Values can be changed before fields are sorted or behind that. -/
theorem mapValues_sorted (f : α → β) (fields : Fields α) :
    fields.sorted.mapValues f = (fields.mapValues f).sorted :=
  List.map_mergeSort fun _ _ _ _ ↦ rfl

private theorem Distinct.sorted (h : fields.Distinct) : fields.sorted.Distinct :=
  ((sorted_perm fields).map Prod.fst).nodup_iff.mpr h

end Fields

namespace Value

variable {ε : Type} {v w : Value ε}

private theorem sortItems_eq_map (items : List (Value ε)) : sortItems items = items.map
    sortFields := by
  induction items with
  | nil => rfl
  | cons v rest ih => rw [sortItems, ih, List.map_cons]

private theorem sortValues_eq_mapNamed (fields : Fields (Value ε)) :
    sortValues fields = fields.mapNamed fun _ ↦ sortFields := by
  induction fields with
  | nil => rfl
  | cons f rest ih => rw [sortValues, ih, Fields.mapNamed, Fields.mapNamed, List.map_cons]

/-- The fields in a list are sorted in each item. -/
theorem sortFields_array (items : List (Value ε)) :
    (array items).sortFields = .array (items.map sortFields) := by
  rw [sortFields, sortItems_eq_map]

/-- The fields in an object are sorted in each value, and then its own ones. -/
theorem sortFields_object (fields : Fields (Value ε)) :
    (object fields).sortFields = .object (fields.mapNamed fun _ ↦ sortFields).sorted := by
  rw [sortFields, sortValues_eq_mapNamed]
  rfl

/-- Has a value no parts? -/
def isLeaf : Value ε → Bool
  | .array _ => false
  | .object _ => false
  | _ => true

private theorem sortFields_leaf (h : v.isLeaf = true) : v.sortFields = v := by
  cases v with
  | array items => cases h
  | object fields => cases h
  | _ => rfl

private theorem isLeaf_sortFields (v : Value ε) : v.sortFields.isLeaf = v.isLeaf := by
  cases v <;> rfl

/-- Two values are the same data: they differ in the order of the fields of objects alone. Leaves
have to be equal, so whole numbers, doubles and truth values are told apart, and the two zeros. -/
inductive SameData : Value ε → Value ε → Prop where
  | leaf {v : Value ε} : v.isLeaf = true → SameData v v
  | array {items others : List (Value ε)} : items.length = others.length →
      (∀ v w, (v, w) ∈ items.zip others → SameData v w) → SameData (.array items) (.array others)
  | object {fields others : Fields (Value ε)} :
      (∀ name, name ∈ fields.names ↔ name ∈ others.names) →
      (∀ name v w, fields.get? name = some v → others.get? name = some w → SameData v w) →
      SameData (.object fields) (.object others)

section Objects

variable {fields others : Fields (Value ε)}

private theorem distinct_mapNamed (h : fields.Distinct) (f : Text → Value ε → Value ε) :
    (fields.mapNamed f).Distinct := by
  rw [Fields.Distinct, Fields.names_mapNamed]
  exact h

private theorem names_sortFields (fields : Fields (Value ε)) :
    ((fields.mapNamed fun _ ↦ sortFields).sorted.names).Perm fields.names := by
  rw [← Fields.names_mapNamed (fun _ ↦ sortFields) fields]
  exact (Fields.sorted_perm _).map Prod.fst

/-- The fields of the ordered object are those of the object, with their own fields ordered. -/
theorem mem_sortFields {f : Text × Value ε} :
    f ∈ (fields.mapNamed fun _ ↦ sortFields).sorted ↔
      ∃ v, (f.1, v) ∈ fields ∧ v.sortFields = f.2 :=
  (Fields.sorted_perm _).mem_iff.trans Fields.mem_mapNamed

/-- A field of an object is found in the ordered object, with its own fields ordered. -/
theorem get?_sortFields (h : fields.Distinct) (name : Text) :
    (fields.mapNamed fun _ ↦ sortFields).sorted.get? name =
      (fields.get? name).map sortFields := by
  rw [Fields.get?_perm (Fields.sorted_perm _) (distinct_mapNamed h _), Fields.get?_mapNamed]

/-- Ordered objects are equal if every name has the same ordered value. -/
theorem sortFields_object_congr (h : fields.Distinct) (h' : others.Distinct)
    (hget : ∀ name, (fields.get? name).map sortFields = (others.get? name).map sortFields) :
    (object fields).sortFields = (object others).sortFields := by
  rw [sortFields_object, sortFields_object]
  congr 1
  apply Fields.sorted_congr (distinct_mapNamed h _)
  apply Fields.perm_of_get?_eq (distinct_mapNamed h _) (distinct_mapNamed h' _)
  intro name
  rw [Fields.get?_mapNamed, Fields.get?_mapNamed, hget]

/-- The order in which fields come is forgotten. -/
theorem sortFields_object_perm (h : fields.Distinct) (hperm : fields.Perm others) :
    (object fields).sortFields = (object others).sortFields := by
  have h' : others.Distinct := (hperm.map Prod.fst).nodup_iff.mp h
  apply sortFields_object_congr h h'
  intro name
  rw [Fields.get?_perm hperm h']

end Objects

/-- Values that are equal when their fields are ordered are the same data. -/
theorem sameData_of_sortFields_eq (hv : v.DistinctNames) (hw : w.DistinctNames)
    (h : v.sortFields = w.sortFields) : v.SameData w := by
  induction hv generalizing w with
  | @array items _ ih =>
    cases hw with
    | @array others hothers =>
      rw [sortFields_array, sortFields_array, Value.array.injEq, ← List.forall₂_eq_eq_eq,
        List.forall₂_map_left_iff, List.forall₂_map_right_iff, List.forall₂_iff_zip] at h
      refine .array h.1 fun v w hzip ↦ ?_
      have hmem := List.of_mem_zip hzip
      exact ih v hmem.1 (hothers w hmem.2) (h.2 hzip)
    | _ => simp [sortFields] at h
  | @object fields hdistinct _ ih =>
    cases hw with
    | @object others hdistinct' hothers =>
      rw [sortFields_object, sortFields_object, Value.object.injEq] at h
      refine .object (fun name ↦ ?_) fun name v w hv hw ↦ ?_
      · rw [← (names_sortFields fields).mem_iff, h, (names_sortFields others).mem_iff]
      · have hget := get?_sortFields hdistinct name
        rw [h, get?_sortFields hdistinct' name, hv, hw] at hget
        exact ih _ (Fields.mem_of_get? hv) (hothers _ (Fields.mem_of_get? hw))
          (Option.some.inj hget).symm
    | _ => simp [sortFields] at h
  | _ =>
    have hleaf : w.isLeaf = true := by
      rw [← isLeaf_sortFields, ← h]
      rfl
    rw [sortFields_leaf rfl, sortFields_leaf hleaf] at h
    rw [← h]
    exact .leaf rfl

/-- The same data is equal when the fields are ordered. -/
theorem SameData.sortFields_eq (h : v.SameData w) (hv : v.DistinctNames) (hw : w.DistinctNames) :
    v.sortFields = w.sortFields := by
  induction h with
  | @array items others hlength _ ih =>
    rw [distinctNames_array_iff] at hv hw
    rw [sortFields_array, sortFields_array, Value.array.injEq, ← List.forall₂_eq_eq_eq,
      List.forall₂_map_left_iff, List.forall₂_map_right_iff, List.forall₂_iff_zip]
    refine ⟨hlength, fun {v w} hzip ↦ ?_⟩
    have hmem := List.of_mem_zip hzip
    exact ih v w hzip (hv v hmem.1) (hw w hmem.2)
  | @object fields others hnames _ ih =>
    rw [distinctNames_object_iff] at hv hw
    apply sortFields_object_congr hv.1 hw.1
    intro name
    cases hget : fields.get? name with
    | none =>
      have hother : others.get? name = none := by
        rw [Fields.get?_eq_none_iff] at hget ⊢
        rwa [← hnames]
      rw [hother]
    | some v =>
      cases hother : others.get? name with
      | none =>
        rw [Fields.get?_eq_none_iff, ← hnames, ← Fields.get?_eq_none_iff, hget] at hother
        cases hother
      | some w =>
        exact congrArg some (ih name v w hget hother (hv.2 _ (Fields.mem_of_get? hget))
          (hw.2 _ (Fields.mem_of_get? hother)))
  | leaf _ => rfl

/-- Ordering the fields of all objects tells values apart exactly if they are different data. -/
theorem sortFields_eq_iff (hv : v.DistinctNames) (hw : w.DistinctNames) :
    v.sortFields = w.sortFields ↔ v.SameData w :=
  ⟨sameData_of_sortFields_eq hv hw, fun h ↦ h.sortFields_eq hv hw⟩

/-- Distinct names stay distinct when fields are sorted. -/
theorem DistinctNames.sortFields (h : v.DistinctNames) : v.sortFields.DistinctNames := by
  induction h with
  | array _ ih =>
    rw [sortFields_array]
    exact .array (List.forall_mem_map.mpr ih)
  | @object fields hdistinct _ ih =>
    rw [sortFields_object]
    refine .object (Fields.Distinct.sorted (distinct_mapNamed hdistinct _)) fun f hf ↦ ?_
    obtain ⟨v, hv, hvalue⟩ := mem_sortFields.mp hf
    rw [← hvalue]
    exact ih _ hv
  | _ => constructor

/-- What all texts are, they stay when fields are sorted. -/
theorem AllTexts.sortFields {p : Text → Prop} (h : v.AllTexts p) : v.sortFields.AllTexts p := by
  induction h with
  | array _ ih =>
    rw [sortFields_array]
    exact .array (List.forall_mem_map.mpr ih)
  | @object fields hnames _ ih =>
    rw [sortFields_object]
    refine .object (fun f hf ↦ ?_) fun f hf ↦ ?_
    · obtain ⟨v, hv, -⟩ := mem_sortFields.mp hf
      exact hnames (f.1, v) hv
    · obtain ⟨v, hv, hvalue⟩ := mem_sortFields.mp hf
      rw [← hvalue]
      exact ih _ hv
  | string ht => exact .string ht
  | _ => constructor

/-- Ordering the fields of all objects leaves the data. -/
theorem sameData_sortFields (h : v.DistinctNames) : v.sortFields.SameData v := by
  induction h with
  | @array items _ ih =>
    have hitems : List.Forall₂ SameData (items.map sortFields) items :=
      List.forall₂_map_left_iff.mpr (List.forall₂_same.mpr ih)
    rw [List.forall₂_iff_zip] at hitems
    rw [sortFields_array]
    exact .array hitems.1 fun v w ↦ hitems.2
  | @object fields hdistinct _ ih =>
    rw [sortFields_object]
    refine .object (fun name ↦ (names_sortFields fields).mem_iff) fun name v w hv hw ↦ ?_
    rw [get?_sortFields hdistinct, hw] at hv
    obtain rfl := Option.some.inj hv
    exact ih _ (Fields.mem_of_get? hw)
  | _ => exact .leaf rfl

end Value

end ApiTools
