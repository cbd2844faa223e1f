import Mathlib.Logic.Basic
import ApiTools.Json.Fields

/-!
# Laws of ordered fields

What a name gets from fields that were put together or set one after the other: the first of the
former, the last of the latter.
-/

namespace ApiTools

namespace Fields

variable {α : Type}

instance (fields : Fields α) : Decidable fields.Distinct :=
  inferInstanceAs (Decidable (List.Nodup _))

/-- The names of two lists of fields are those of the first and then those of the second. -/
theorem names_append (fields others : Fields α) :
    names (fields ++ others) = names fields ++ names others := by
  simp [names]

/-- A name that no field has gets nothing. -/
theorem get?_eq_none_iff (fields : Fields α) (name : Text) :
    fields.get? name = none ↔ name ∉ fields.names := by
  induction fields with
  | nil => simp [get?, names]
  | cons f rest ih =>
    rw [get?_cons]
    by_cases hname : f.1 = name
    · simp [hname, names]
    · rw [if_neg hname, ih]
      simp [names, Ne.symm hname]

/-- A field has a name exactly if something is found under it. -/
theorem has_eq_true_iff (fields : Fields α) (name : Text) :
    fields.has name = true ↔ name ∈ fields.names := by
  rw [has, ← not_iff_not, Bool.not_eq_true, Option.isSome_eq_false_iff, Option.isNone_iff_eq_none,
    get?_eq_none_iff]

/-- Fields have no surrogate in their names if all of these can be written. -/
theorem hasSurrogateName_eq_false_iff {fields : Fields α} :
    fields.hasSurrogateName = false ↔ ∀ f ∈ fields, f.1.IsClean := by
  simp only [hasSurrogateName, List.any_eq_false, Text.any_isSurrogate_iff, not_not]

/-- Fields that are there under the same names have surrogates in them or not alike. -/
theorem hasSurrogateName_congr {fields others : Fields α}
    (h : ∀ name : Text, ¬name.IsClean → fields.has name = others.has name) :
    fields.hasSurrogateName = others.hasSurrogateName := by
  have hiff : ∀ all : Fields α, all.hasSurrogateName = true ↔
      ∃ name : Text, ¬name.IsClean ∧ all.has name = true := by
    intro all
    rw [hasSurrogateName, List.any_eq_true]
    constructor
    · rintro ⟨f, hf, hname⟩
      exact ⟨f.1, Text.any_isSurrogate_iff.mp hname,
        (has_eq_true_iff all f.1).mpr (List.mem_map_of_mem hf)⟩
    · rintro ⟨name, hname, hhas⟩
      obtain ⟨f, hf, rfl⟩ := List.mem_map.mp ((has_eq_true_iff all name).mp hhas)
      exact ⟨f, hf, Text.any_isSurrogate_iff.mpr hname⟩
  rw [Bool.eq_iff_iff, hiff, hiff]
  refine exists_congr fun name ↦ and_congr_right fun hname ↦ ?_
  rw [h name hname]

/-- What a name gets is the value of a field. -/
theorem mem_of_get? {fields : Fields α} {name : Text} {value : α}
    (h : fields.get? name = some value) : (name, value) ∈ fields := by
  induction fields with
  | nil => cases h
  | cons f rest ih =>
    rw [get?_cons] at h
    by_cases hname : f.1 = name
    · rw [if_pos hname, Option.some.injEq] at h
      rw [← hname, ← h]
      exact List.mem_cons_self
    · rw [if_neg hname] at h
      exact List.mem_cons_of_mem f (ih h)

/-- Fields of distinct names are all found. -/
theorem get?_eq_some_iff {fields : Fields α} (h : fields.Distinct) (name : Text) (value : α) :
    fields.get? name = some value ↔ (name, value) ∈ fields := by
  refine ⟨mem_of_get?, fun hmem ↦ ?_⟩
  induction fields with
  | nil => cases hmem
  | cons f rest ih =>
    obtain ⟨hfresh, hrest⟩ := List.nodup_cons.mp h
    rw [get?_cons]
    rcases List.mem_cons.mp hmem with rfl | hmem
    · rw [if_pos rfl]
    · have hname : f.1 ≠ name := by
        rintro rfl
        exact hfresh (List.mem_map.mpr ⟨_, hmem, rfl⟩)
      rw [if_neg hname, ih hrest hmem]

/-- Fields of distinct names are found in any order. -/
theorem get?_perm {fields others : Fields α} (hperm : fields.Perm others) (h : others.Distinct)
    (name : Text) : fields.get? name = others.get? name := by
  have hfields : fields.Distinct := (hperm.map Prod.fst).nodup_iff.mpr h
  apply Option.ext
  intro value
  rw [get?_eq_some_iff hfields, get?_eq_some_iff h, hperm.mem_iff]

/-- Fields of distinct names are distinct themselves. -/
theorem Distinct.nodup {fields : Fields α} (h : fields.Distinct) : List.Nodup fields :=
  (List.pairwise_map.mp h).imp fun hne heq ↦ hne (congrArg Prod.fst heq)

/-- Fields of distinct names in which every name gets the same are the same but for their order. -/
theorem perm_of_get?_eq {fields others : Fields α} (h : fields.Distinct) (h' : others.Distinct)
    (hget : ∀ name, fields.get? name = others.get? name) : fields.Perm others := by
  rw [List.perm_ext_iff_of_nodup h.nodup h'.nodup]
  rintro ⟨name, value⟩
  rw [← get?_eq_some_iff h, ← get?_eq_some_iff h', hget]

/-- The earlier of two lists of fields comes first. -/
theorem get?_append (fields others : Fields α) (name : Text) :
    get? (fields ++ others) name = (fields.get? name).or (others.get? name) := by
  induction fields with
  | nil => rfl
  | cons f rest ih =>
    rw [List.cons_append, get?_cons, get?_cons, ih]
    split <;> rfl

/-- The last setting of a name wins. -/
theorem get?_update (fields others : Fields α) (name : Text) :
    (fields.update others).get? name = (get? others.reverse name).or (fields.get? name) := by
  induction others generalizing fields with
  | nil => rfl
  | cons f rest ih =>
    have hstep : fields.update (f :: rest) = (fields.set f.1 f.2).update rest := rfl
    rw [hstep, ih, get?_set, List.reverse_cons, get?_append, Option.or_assoc, get?_cons]
    split <;> rfl

/-- After a sequence of settings a name has its last value. -/
theorem get?_ofList (settings : Fields α) (name : Text) :
    (ofList settings).get? name = get? settings.reverse name := by
  rw [ofList, get?_update, get?_nil, Option.or_none]

/-- The names that are left are those that were set. -/
theorem mem_names_ofList {settings : Fields α} {name : Text} :
    name ∈ (ofList settings).names ↔ name ∈ settings.names := by
  have hiff := get?_eq_none_iff (ofList settings) name
  rw [get?_ofList, get?_eq_none_iff, names, List.map_reverse, List.mem_reverse] at hiff
  exact (not_iff_not.mp hiff).symm

/-- A field of a new name goes to the end. -/
theorem set_eq_append {fields : Fields α} {name : Text} (h : name ∉ fields.names) (value : α) :
    fields.set name value = fields ++ [(name, value)] := by
  induction fields with
  | nil => rfl
  | cons f rest ih =>
    simp only [names, List.map_cons, List.mem_cons, not_or] at h
    rw [set, if_neg (Ne.symm h.1), ih h.2, List.cons_append]

/-- Settings of new and distinct names are put behind the fields. -/
theorem update_eq_append {fields others : Fields α} (h : Distinct (fields ++ others)) :
    fields.update others = fields ++ others := by
  induction others generalizing fields with
  | nil => rw [List.append_nil]; rfl
  | cons f rest ih =>
    have hstep : fields.update (f :: rest) = (fields.set f.1 f.2).update rest := rfl
    have hfresh : f.1 ∉ fields.names := by
      rw [Distinct, names_append, List.nodup_append] at h
      exact fun hmem ↦ h.2.2 _ hmem _ List.mem_cons_self rfl
    rw [hstep, set_eq_append hfresh, ih, List.append_assoc, List.singleton_append]
    rwa [List.append_assoc, List.singleton_append]

/-- Settings of distinct names are kept as they are. -/
theorem ofList_eq_self {settings : Fields α} (h : settings.Distinct) : ofList settings = settings :=
  @update_eq_append α [] settings h

/-- Leaving out fields of other names leaves what a name gets. -/
theorem get?_filter {fields : Fields α} {name : Text} {p : Text × α → Bool}
    (h : ∀ value, p (name, value) = true) :
    get? (fields.filter p) name = fields.get? name := by
  induction fields with
  | nil => rfl
  | cons f rest ih =>
    by_cases hname : f.1 = name
    · have hkept : p f = true := by
        have hf := h f.2
        rwa [← hname] at hf
      rw [List.filter_cons_of_pos hkept, get?_cons, get?_cons, if_pos hname, if_pos hname]
    · rw [get?_cons, if_neg hname, ← ih, List.filter_cons]
      split
      · rw [get?_cons, if_neg hname]
      · rfl

/-- What settings leave has distinct names. -/
theorem distinct_ofList (settings : Fields α) : (ofList settings).Distinct := by
  have hupdate : ∀ fields : Fields α, fields.Distinct → (fields.update settings).Distinct := by
    induction settings with
    | nil => exact fun _ h ↦ h
    | cons f rest ih => exact fun fields h ↦ ih (fields.set f.1 f.2) (h.set f.1 f.2)
  exact hupdate [] List.nodup_nil

/-- What is left was set. -/
theorem mem_of_mem_ofList {settings : Fields α} {f : Text × α} (h : f ∈ ofList settings) :
    f ∈ settings := by
  have hget := (get?_eq_some_iff (distinct_ofList settings) f.1 f.2).mpr h
  rw [get?_ofList] at hget
  exact List.mem_reverse.mp (mem_of_get? hget)

/-- What a name gets from fields that were made of some elements was made of the first one that
gives it something. -/
theorem exists_of_get?_filterMap {β : Type} {f : β → Option (Text × α)} {l : List β} {name : Text}
    {value : α} (h : get? (l.filterMap f) name = some value) :
    ∃ before b behind, l = before ++ b :: behind ∧ f b = some (name, value) ∧
      ∀ c ∈ before, ∀ other, f c ≠ some (name, other) := by
  induction l with
  | nil => cases h
  | cons a rest ih =>
    cases ha : f a with
    | none =>
      rw [List.filterMap_cons_none ha] at h
      obtain ⟨before, b, behind, rfl, hb, hbefore⟩ := ih h
      refine ⟨a :: before, b, behind, rfl, hb, List.forall_mem_cons.mpr ⟨?_, hbefore⟩⟩
      simp [ha]
    | some g =>
      rw [List.filterMap_cons_some ha, get?_cons] at h
      by_cases hname : g.1 = name
      · rw [if_pos hname, Option.some.injEq] at h
        exact ⟨[], a, rest, rfl, ha.trans (congrArg some (Prod.ext hname h)), nofun⟩
      · rw [if_neg hname] at h
        obtain ⟨before, b, behind, rfl, hb, hbefore⟩ := ih h
        refine ⟨a :: before, b, behind, rfl, hb, List.forall_mem_cons.mpr ⟨?_, hbefore⟩⟩
        intro other heq
        rw [ha, Option.some.injEq] at heq
        exact hname (congrArg Prod.fst heq)

/-- What is left under a name was made of the last element that sets it. -/
theorem exists_last_of_mem_ofList {β : Type} {f : β → Option (Text × α)} {l : List β} {g : Text × α}
    (h : g ∈ ofList (l.filterMap f)) :
    ∃ before b behind, l = before ++ b :: behind ∧ f b = some g ∧
      ∀ c ∈ behind, ∀ other, f c ≠ some (g.1, other) := by
  have hget := (get?_eq_some_iff (distinct_ofList _) g.1 g.2).mpr h
  rw [get?_ofList, ← List.filterMap_reverse] at hget
  obtain ⟨behind, b, before, hl, hb, hlater⟩ := exists_of_get?_filterMap hget
  refine ⟨before.reverse, b, behind.reverse, ?_, hb, fun c hc ↦ hlater c (List.mem_reverse.mp hc)⟩
  rw [← List.reverse_reverse l, hl]
  simp

section Changes

/-- Every value changed by a function of its name and the value. -/
def mapNamed (f : Text → α → α) (fields : Fields α) : Fields α :=
  fields.map fun g ↦ (g.1, f g.1 g.2)

/-- Changing values is changing named values without regard to the names. -/
theorem mapValues_eq_mapNamed (f : α → α) (fields : Fields α) :
    fields.mapValues f = fields.mapNamed fun _ ↦ f := rfl

/-- Adjusting the values of a name is changing named values. -/
theorem adjust_eq_mapNamed (fields : Fields α) (name : Text) (f : α → α) :
    fields.adjust name f = fields.mapNamed fun other v ↦ if other = name then f v else v := rfl

/-- Changing values keeps the names. -/
theorem names_mapNamed (f : Text → α → α) (fields : Fields α) :
    (fields.mapNamed f).names = fields.names := by
  rw [names, mapNamed, List.map_map]
  rfl

/-- What a name gets from changed values is the changed value that it got. -/
theorem get?_mapNamed (f : Text → α → α) (fields : Fields α) (name : Text) :
    (fields.mapNamed f).get? name = (fields.get? name).map (f name) := by
  induction fields with
  | nil => rfl
  | cons g rest ih =>
    have hcons : mapNamed f (g :: rest) = (g.1, f g.1 g.2) :: mapNamed f rest := rfl
    rw [hcons, get?_cons, get?_cons, ih]
    by_cases hname : g.1 = name
    · rw [if_pos hname, if_pos hname, hname]
      rfl
    · rw [if_neg hname, if_neg hname]

/-- What a name gets from changed values is the changed value that it got. -/
theorem get?_mapValues {β : Type} (f : α → β) (fields : Fields α) (name : Text) :
    (fields.mapValues f).get? name = (fields.get? name).map f := by
  induction fields with
  | nil => rfl
  | cons g rest ih =>
    have hcons : mapValues f (g :: rest) = (g.1, f g.2) :: mapValues f rest := rfl
    rw [hcons, get?_cons, get?_cons, ih]
    split <;> rfl

/-- Two changes of values are one. -/
theorem mapNamed_mapNamed (f g : Text → α → α) (fields : Fields α) :
    (fields.mapNamed f).mapNamed g = fields.mapNamed fun name v ↦ g name (f name v) :=
  List.map_map

/-- Changes that are the same for the fields there are give the same. -/
theorem mapNamed_congr {f g : Text → α → α} {fields : Fields α}
    (h : ∀ field ∈ fields, f field.1 field.2 = g field.1 field.2) :
    fields.mapNamed f = fields.mapNamed g :=
  List.map_congr_left fun field hfield ↦ by rw [h field hfield]

/-- A change that keeps the values there are keeps the fields. -/
theorem mapNamed_eq_self {f : Text → α → α} {fields : Fields α}
    (h : ∀ field ∈ fields, f field.1 field.2 = field.2) : fields.mapNamed f = fields := by
  have hcongr : fields.mapNamed f = fields.mapNamed fun _ v ↦ v := mapNamed_congr h
  exact hcongr.trans (List.map_id fields)

/-- A field with a changed value comes from one of its name. -/
theorem mem_mapNamed {f : Text → α → α} {fields : Fields α} {field : Text × α} :
    field ∈ fields.mapNamed f ↔ ∃ v, (field.1, v) ∈ fields ∧ f field.1 v = field.2 := by
  rw [mapNamed, List.mem_map]
  constructor
  · rintro ⟨g, hg, rfl⟩
    exact ⟨g.2, hg, rfl⟩
  · rintro ⟨v, hv, hvalue⟩
    exact ⟨_, hv, Prod.ext rfl hvalue⟩

/-- Erasing a name leaves the fields of other names. -/
theorem erase_eq_filter (fields : Fields α) (name : Text) :
    fields.erase name = fields.filter fun f ↦ f.1 ≠ name := by
  induction fields with
  | nil => rfl
  | cons f rest ih =>
    by_cases hname : f.1 = name <;> simp [erase, hname, ih]

/-- Values can be changed before a name is erased or behind that. -/
theorem erase_mapNamed (f : Text → α → α) (fields : Fields α) (name : Text) :
    (fields.mapNamed f).erase name = (fields.erase name).mapNamed f := by
  rw [erase_eq_filter, erase_eq_filter, mapNamed, mapNamed, List.filter_map]
  rfl

/-- An erased name gets nothing, and every other name what it got. -/
theorem get?_erase (fields : Fields α) (name wanted : Text) :
    (fields.erase name).get? wanted = if name = wanted then none else fields.get? wanted := by
  split
  · next h =>
    subst h
    rw [get?_eq_none_iff, erase_eq_filter]
    simp [names]
  · next h =>
    rw [erase_eq_filter]
    exact get?_filter fun _ ↦ decide_eq_true (Ne.symm h)

/-- Erasing a name leaves the other names. -/
theorem names_erase (fields : Fields α) (name : Text) :
    (fields.erase name).names = fields.names.filter (· ≠ name) := by
  rw [erase_eq_filter, names, names, List.filter_map]
  rfl

/-- Names stay distinct when one is erased. -/
theorem Distinct.erase {fields : Fields α} (h : fields.Distinct) (name : Text) :
    (fields.erase name).Distinct := by
  rw [Distinct, names_erase]
  exact List.Pairwise.filter _ h

/-- Names stay distinct when fields are set. -/
theorem Distinct.update {fields : Fields α} (h : fields.Distinct) (others : Fields α) :
    (fields.update others).Distinct := by
  induction others generalizing fields with
  | nil => exact h
  | cons f rest ih => exact ih (h.set f.1 f.2)

/-- Settings add new names at the end. -/
theorem names_update (fields others : Fields α) :
    ∃ added, (fields.update others).names = fields.names ++ added ∧
      ∀ name ∈ added, name ∈ others.names ∧ name ∉ fields.names := by
  induction others generalizing fields with
  | nil => exact ⟨[], (List.append_nil _).symm, nofun⟩
  | cons f rest ih =>
    obtain ⟨added, hnames, hadded⟩ := ih (fields.set f.1 f.2)
    have hstep : fields.update (f :: rest) = (fields.set f.1 f.2).update rest := rfl
    rw [hstep, hnames]
    rw [names_set] at hadded ⊢
    have hrest : ∀ name ∈ added, name ∈ names (f :: rest) := fun name hname ↦
      List.mem_cons_of_mem f.1 (hadded name hname).1
    split at hadded
    · next hmem =>
      rw [if_pos hmem]
      exact ⟨added, rfl, fun name hname ↦ ⟨hrest name hname, (hadded name hname).2⟩⟩
    · next hmem =>
      rw [if_neg hmem]
      refine ⟨f.1 :: added, by rw [List.append_assoc, List.singleton_append], ?_⟩
      refine List.forall_mem_cons.mpr ⟨⟨List.mem_cons_self, hmem⟩, fun name hname ↦
        ⟨hrest name hname, fun hold ↦ (hadded name hname).2 (List.mem_append_left _ hold)⟩⟩

/-- A field that is there after a setting was there or is the one that was set. -/
theorem mem_of_mem_set {fields : Fields α} {name : Text} {value : α} {f : Text × α}
    (h : f ∈ fields.set name value) : f ∈ fields ∨ f = (name, value) := by
  induction fields with
  | nil => exact .inr (List.mem_singleton.mp h)
  | cons g rest ih =>
    rw [set] at h
    split at h
    · next hname =>
      subst hname
      rcases List.mem_cons.mp h with rfl | h
      · exact .inr rfl
      · exact .inl (List.mem_cons_of_mem g h)
    · rcases List.mem_cons.mp h with rfl | h
      · exact .inl List.mem_cons_self
      · exact (ih h).imp_left (List.mem_cons_of_mem g)

/-- A field that is there after some settings was there or was set. -/
theorem mem_of_mem_update {fields others : Fields α} {f : Text × α} (h : f ∈ fields.update others) :
    f ∈ fields ∨ f ∈ others := by
  induction others generalizing fields with
  | nil => exact .inl h
  | cons g rest ih =>
    rcases ih h with h | h
    · rcases mem_of_mem_set h with h | rfl
      · exact .inl h
      · exact .inr List.mem_cons_self
    · exact .inr (List.mem_cons_of_mem g h)

end Changes

end Fields

end ApiTools
