import ApiTools.Proofs.CleanTexts
import ApiTools.Proofs.DistinctNames
import ApiTools.Proofs.Fields
import ApiTools.Proofs.Outcome
import ApiTools.Spec.Reference

/-!
# What inlining brings into a document

References are replaced by values of the document itself, or by bare pointers that are parts of its
texts. So a document without surrogates has none after its references were inlined
(`holdsClean_inlineReferences`).
-/

namespace ApiTools

namespace Text

variable {sep : CodePoint} {t u : Text}

private theorem IsClean.of_subset (h : t.IsClean) (hsub : u ⊆ t) : u.IsClean := fun c hc ↦ h c
    (hsub hc)

/-- What stands on either side of a cut is part of the text. -/
theorem subset_of_cut (sep : CodePoint) (t : Text) :
    (cut sep t).1 ⊆ t ∧ ∀ u, (cut sep t).2 = some u → u ⊆ t := by
  induction t with
  | nil => exact ⟨List.Subset.refl _, nofun⟩
  | cons c t ih =>
    rw [cut]
    split
    · refine ⟨List.nil_subset _, fun u hu ↦ ?_⟩
      cases hu
      exact List.subset_cons_self c t
    · exact ⟨List.cons_subset_cons c ih.1, fun u hu ↦ List.subset_cons_of_subset c (ih.2 u hu)⟩

end Text

namespace Spec

open Text (IsClean)

/-- No text of the value has a surrogate. -/
abbrev HoldsClean (v : Json) : Prop := v.AllTexts IsClean

section Fields

variable {fields : Fields Json} {name : Text} {v : Json}

/-- The value of a field of an object without surrogates holds none. -/
theorem holdsClean_of_get? (hfields : HoldsClean (.object fields))
    (h : fields.get? name = some v) : HoldsClean v :=
  (Value.allTexts_object_iff.mp hfields _ (Fields.mem_of_get? h)).2

/-- The value of a field of such an object, or another one without surrogates, holds none. -/
theorem holdsClean_getD (hfields : HoldsClean (.object fields)) (name : Text)
    (hv : HoldsClean v) : HoldsClean ((fields.get? name).getD v) := by
  cases hget : fields.get? name with
  | none => exact hv
  | some found => exact holdsClean_of_get? hfields hget

end Fields

/-- No name on the path has a surrogate. -/
def NamesClean (path : Path) : Prop := ∀ name, Step.field name ∈ path → name.IsClean

section Pointers

private theorem subset_splitScheme (url : Text) : (splitScheme url).2 ⊆ url := by
  unfold splitScheme
  split
  · next scheme rest hcut =>
    have hrest : rest ⊆ url := (Text.subset_of_cut ':' url).2 rest (by rw [hcut])
    split
    · split
      · exact hrest
      · exact List.Subset.refl url
    · exact List.Subset.refl url
  · exact List.Subset.refl url

private theorem subset_cleanUrl (url : Text) : cleanUrl url ⊆ url :=
  List.Subset.trans (List.filter_subset_self _) (List.dropWhile_sublist _).subset

/-- A pointer is part of the reference that it stands in. -/
theorem subset_of_target {url pointer : Text} (h : target url = .ok (.internal pointer)) :
    pointer ⊆ url := by
  have hrest : (splitScheme (cleanUrl url)).2 ⊆ url :=
    List.Subset.trans (subset_splitScheme _) (subset_cleanUrl url)
  unfold target at h
  dsimp only at h
  split at h
  · split at h
    · cases h
      cases hfragment : (Text.cut '#' (splitScheme (cleanUrl url)).2).2 with
      | none => exact List.nil_subset url
      | some fragment =>
        exact List.Subset.trans ((Text.subset_of_cut '#' _).2 fragment hfragment) hrest
    · cases h
  · split at h <;> cases h

private theorem holdsClean_bareReference {pointer : Text} (h : pointer.IsClean) :
    HoldsClean (bareReference pointer) := by
  have htext : IsClean ("#" ++ pointer) :=
    Text.isClean_append_iff.mpr ⟨Text.isClean_ofString "#", h⟩
  exact .object (List.forall_mem_singleton.mpr (Text.isClean_ofString "$ref"))
    (List.forall_mem_singleton.mpr (.string htext))

private theorem isClean_of_targetOf {reference : Json} {pointer : Text}
    (hreference : HoldsClean reference)
    (h : targetOf reference = .ok (.internal pointer)) : pointer.IsClean := by
  unfold targetOf at h
  split at h
  · exact (Value.allTexts_string_iff.mp hreference).of_subset (subset_of_target h)
  · split at h <;> cases h

/-- What a pointer points at is part of the document. -/
theorem holdsClean_lookUp {v w : Json} {segments : List Text} (hv : HoldsClean v)
    (h : lookUp v segments = some w) : HoldsClean w := by
  induction segments generalizing v with
  | nil =>
    cases h
    split
    · exact .null
    · exact hv
  | cons name rest ih =>
    cases v with
    | object fields =>
      obtain ⟨found, hfound, h⟩ := Option.bind_eq_some_iff.mp h
      exact ih (holdsClean_of_get? hv hfound) h
    | array items =>
      obtain ⟨i, -, h⟩ := Option.bind_eq_some_iff.mp h
      obtain ⟨found, hfound, h⟩ := Option.bind_eq_some_iff.mp h
      exact ih (Value.allTexts_array_iff.mp hv _ (List.mem_of_getElem? hfound)) h
    | string t =>
      obtain ⟨i, -, h⟩ := Option.bind_eq_some_iff.mp h
      obtain ⟨c, hc, h⟩ := Option.bind_eq_some_iff.mp h
      have hclean : IsClean [c] := List.forall_mem_singleton.mpr
        (Value.allTexts_string_iff.mp hv c (List.mem_of_getElem? hc))
      exact ih (.string hclean) h
    | other e => exact e.elim
    | _ => cases h

end Pointers

section References

variable {path : Path}

/-- A path without surrogates goes on to a name without one. -/
theorem NamesClean.field (h : NamesClean path) {name : Text} (hname : name.IsClean) :
    NamesClean (path ++ [.field name]) := by
  intro other hother
  rcases List.mem_append.mp hother with hother | hother
  · exact h other hother
  · cases List.mem_singleton.mp hother
    exact hname

/-- A path without surrogates goes on to an item. -/
theorem NamesClean.index (h : NamesClean path) (i : Nat) : NamesClean (path ++ [.index i]) := by
  intro other hother
  rcases List.mem_append.mp hother with hother | hother
  · exact h other hother
  · cases List.mem_singleton.mp hother

mutual

/-- The references of a value and the paths that lead to them hold texts of the value. -/
theorem holdsClean_references {path : Path} (hpath : NamesClean path) :
    ∀ v, HoldsClean v → ∀ r ∈ references path v, NamesClean r.1 ∧ HoldsClean r.2
  | .array items, hv => holdsClean_itemReferences hpath 0 items (Value.allTexts_array_iff.mp hv)
  | .object fields, hv => holdsClean_fieldReferences hpath fields (Value.allTexts_object_iff.mp hv)
  | .null, _ | .bool _, _ | .int _, _ | .float _, _ | .string _, _ => nofun

private theorem holdsClean_itemReferences {path : Path} (hpath : NamesClean path) (i : Nat) :
    ∀ items : List Json, (∀ v ∈ items, HoldsClean v) →
      ∀ r ∈ itemReferences path i items, NamesClean r.1 ∧ HoldsClean r.2
  | [], _ => nofun
  | v :: rest, hitems => by
    obtain ⟨hv, hrest⟩ := List.forall_mem_cons.mp hitems
    rw [itemReferences, List.forall_mem_append]
    exact ⟨holdsClean_references (hpath.index i) v hv,
      holdsClean_itemReferences hpath (i + 1) rest hrest⟩

private theorem holdsClean_fieldReferences {path : Path} (hpath : NamesClean path) :
    ∀ fields : Fields Json, (∀ f ∈ fields, f.1.IsClean ∧ HoldsClean f.2) →
      ∀ r ∈ fieldReferences path fields, NamesClean r.1 ∧ HoldsClean r.2
  | [], _ => nofun
  | (name, v) :: rest, hfields => by
    obtain ⟨⟨hname, hv⟩, hrest⟩ := List.forall_mem_cons.mp hfields
    rw [fieldReferences, List.forall_mem_append, List.forall_mem_append]
    refine ⟨⟨?_, holdsClean_references (hpath.field hname) v hv⟩,
      holdsClean_fieldReferences hpath rest hrest⟩
    split
    · exact List.forall_mem_singleton.mpr ⟨hpath, hv⟩
    · exact nofun

end

end References

section Put

variable {value v w : Json} {path : Path}

private theorem holdsClean_emptyFor (path : Path) : HoldsClean (emptyFor path) := by
  unfold emptyFor
  split
  · exact .array (List.forall_mem_nil _)
  · exact .object (List.forall_mem_nil _) (List.forall_mem_nil _)
  · exact .null

private theorem holdsClean_padded {items : List Json} {filler : Json}
    (hitems : ∀ v ∈ items, HoldsClean v)
    (hfiller : HoldsClean filler) (i : Nat) : ∀ v ∈ padded items i filler, HoldsClean v := by
  unfold padded
  split
  · exact hitems
  · simp only [List.forall_mem_append, List.forall_mem_singleton]
    refine ⟨⟨hitems, fun v hv ↦ ?_⟩, hfiller⟩
    rw [List.eq_of_mem_replicate hv]
    exact .null

/-- A value that is put into a tree brings its own texts and the names on the path. -/
theorem holdsClean_put (hvalue : HoldsClean value) (hpath : NamesClean path) (hv : HoldsClean v)
    (h : put value path v = .ok w) : HoldsClean w := by
  induction path generalizing v w with
  | nil =>
    cases h
    exact hvalue
  | cons step rest ih =>
    have hrest : NamesClean rest := fun name hname ↦ hpath name (List.mem_cons_of_mem step hname)
    cases v with
    | object fields =>
      cases step with
      | index i => cases h
      | field name =>
        obtain ⟨below, hbelow, h⟩ := Outcome.bind_ok_iff.mp h
        cases h
        have hold := holdsClean_getD hv name (holdsClean_emptyFor rest)
        refine Value.allTexts_object_iff.mpr fun f hf ↦ ?_
        rcases Fields.mem_of_mem_set hf with hf | rfl
        · exact Value.allTexts_object_iff.mp hv f hf
        · exact ⟨hpath name List.mem_cons_self, ih hrest hold hbelow⟩
    | array items =>
      have hitems := Value.allTexts_array_iff.mp hv
      rw [put] at h
      split at h
      · next i _ =>
        obtain ⟨below, hbelow, h⟩ := Outcome.bind_ok_iff.mp h
        cases h
        have hpadded := holdsClean_padded hitems (holdsClean_emptyFor rest) i
        have hold : HoldsClean (((padded items i (emptyFor rest))[i]?).getD .null) := by
          cases hget : (padded items i (emptyFor rest))[i]? with
          | none => exact .null
          | some old => exact hpadded old (List.mem_of_getElem? hget)
        refine Value.allTexts_array_iff.mpr fun v hv ↦ ?_
        rcases List.mem_or_eq_of_mem_set hv with hv | rfl
        · exact hpadded v hv
        · exact ih hrest hold hbelow
      · cases h
    | other e => exact e.elim
    | _ => cases h

/-- Replacements with the names on their paths. -/
def ChangesClean (changes : List (Path × Json)) : Prop :=
  ∀ change ∈ changes, NamesClean change.1 ∧ HoldsClean change.2

private theorem holdsClean_putAll {changes : List (Path × Json)} (hchanges : ChangesClean changes)
    (hv : HoldsClean v) (h : putAll changes v = .ok w) : HoldsClean w := by
  induction changes generalizing v with
  | nil =>
    cases h
    exact hv
  | cons change rest ih =>
    obtain ⟨⟨hpath, hvalue⟩, hrest⟩ := List.forall_mem_cons.mp hchanges
    obtain ⟨below, hbelow, h⟩ := Outcome.bind_ok_iff.mp h
    exact ih hrest (holdsClean_put hvalue hpath hv hbelow) h

end Put

section Inlining

variable {inline : List Text → Except ReferenceError Json} {chain : List (List Text)}
  {document v w : Json}

/-- What replaces references is what is inlined for them, or their pointers alone. -/
theorem changesClean_changes (hinline : ∀ segments v, inline segments = .ok v → HoldsClean v)
    {references : List (Path × Json)} (hreferences : ChangesClean references)
    {made : List (Path × Json)} (h : changes inline chain references = .ok made) :
    ChangesClean made := by
  induction references generalizing made with
  | nil =>
    cases h
    exact nofun
  | cons r rest ih =>
    obtain ⟨path, reference⟩ := r
    obtain ⟨⟨hpath, hreference⟩, hrest⟩ := List.forall_mem_cons.mp hreferences
    obtain ⟨found, hfound, h⟩ := Outcome.bind_ok_iff.mp h
    cases found with
    | external => exact ih hrest h
    | internal pointer =>
      have hpointer := holdsClean_bareReference (isClean_of_targetOf hreference hfound)
      dsimp only at h
      split at h
      · obtain ⟨value, hvalue, h⟩ := Outcome.bind_ok_iff.mp h
        cases hvalue
        obtain ⟨others, hothers, h⟩ := Outcome.bind_ok_iff.mp h
        cases h
        exact List.forall_mem_cons.mpr ⟨⟨hpath, hpointer⟩, ih hrest hothers⟩
      · obtain ⟨value, hvalue, h⟩ := Outcome.bind_ok_iff.mp h
        obtain ⟨others, hothers, h⟩ := Outcome.bind_ok_iff.mp h
        cases h
        exact List.forall_mem_cons.mpr ⟨⟨hpath, hinline _ value hvalue⟩, ih hrest hothers⟩

/-- A value has no surrogates after its references were replaced if neither it nor the document
had. -/
theorem holdsClean_inlineIn (hdocument : HoldsClean document) (fuel : Nat) (hv : HoldsClean v)
    (h : inlineIn document fuel chain v = .ok w) : HoldsClean w := by
  induction fuel generalizing chain v w with
  | zero =>
    cases h
    exact hv
  | succ fuel ih =>
    obtain ⟨made, hmade, h⟩ := Outcome.bind_ok_iff.mp h
    have hroot : NamesClean [] := fun _ hname ↦ absurd hname List.not_mem_nil
    have hreferences : ChangesClean (references [] v) := holdsClean_references hroot v hv
    have hchanges : ChangesClean made := by
      refine changesClean_changes (fun segments found hfound ↦ ?_) hreferences hmade
      split at hfound
      · next hpointed => exact ih (holdsClean_lookUp hdocument hpointed) hfound
      · cases hfound
    have hsorted : ChangesClean (outermostFirst made) := fun change hchange ↦
      hchanges change (List.mem_mergeSort.mp hchange)
    exact holdsClean_putAll hsorted hv h

/-- References in a value without surrogates are replaced by such values. -/
theorem holdsClean_inlineReferences (hv : HoldsClean v) (h : inlineReferences v = .ok w) :
    HoldsClean w :=
  holdsClean_inlineIn hv _ hv h

end Inlining

end Spec

end ApiTools
