import Mathlib.Data.List.Perm.Subperm
import Mathlib.Logic.Relation
import ApiTools.Proofs.DistinctNames
import ApiTools.Proofs.Outcome
import ApiTools.Yaml.Data

/-!
# Unfolded data

The data of a YAML document is a graph. Unfolding it to JSON follows it from part to part, and
refuses a collection inside itself, a name that JSON has no names of and a whole number of too many
digits. No chain of different parts is longer than their number, so the bound on the levels is never
reached: data is unfolded exactly if nothing in it has one of these defects (`toJson_isOk_iff`).
-/

namespace ApiTools

namespace Yaml

open Relation (ReflTransGen TransGen)
open Value (NumbersWithin)

/-- What JSON does not have in a part itself: a whole number of too many digits as a value, in a set
or for a name, and a name of a kind that JSON has no names of. -/
inductive Part.Flaw : Part → Fault → Prop
  | long {a : Atom} : a.isLong = true → Flaw (.simple a) .longNumber
  | longMember {names : List Atom} {a : Atom} : a ∈ names → a.isLong = true →
      Flaw (.set names) .longNumber
  | longName {entries : List (Atom × Nat)} {entry : Atom × Nat} : entry ∈ entries →
      entry.1.isLong = true → Flaw (.mapping entries) .longNumber
  | unusableName {entries : List (Atom × Nat)} {entry : Atom × Nat} : entry ∈ entries →
      entry.1.isName = false → Flaw (.mapping entries) .unusableName

section Atoms

variable {a : Atom} {v : Json} {t : Text} {fault : Fault} {names : List Atom}

private theorem Atom.toJson_ok (h : a.toJson = .ok v) : a.isLong = false ∧ v = a.plain := by
  unfold toJson at h
  split at h
  · cases h
  · next hlong =>
    cases h
    exact ⟨Bool.eq_false_iff.mpr hlong, rfl⟩

private theorem Atom.toJson_error (h : a.toJson = .error fault) :
    a.isLong = true ∧ fault = .longNumber := by
  unfold toJson at h
  split at h
  · next hlong =>
    cases h
    exact ⟨hlong, rfl⟩
  · cases h

private theorem Atom.numbersWithin_plain (h : a.isLong = false) :
    a.plain.NumbersWithin (some Text.digitLimit) := by
  cases a with
  | int i =>
    rw [isLong, Bool.not_eq_false'] at h
    exact .int h
  | float x => exact .float trivial
  | null => exact .null
  | bool b => exact .bool b
  | text t => exact .string t
  | binary b => exact .string _
  | timestamp t => exact .string _

private theorem Atom.name_ok (h : a.name = .ok t) : a.isLong = false ∧ a.isName = true := by
  cases a with
  | int i =>
    obtain ⟨v, hv, -⟩ := Outcome.map_ok_iff.mp h
    exact ⟨(toJson_ok hv).1, rfl⟩
  | binary b => cases h
  | timestamp t => cases h
  | _ => exact ⟨rfl, rfl⟩

private theorem Atom.name_error (h : a.name = .error fault) :
    (a.isLong = true ∧ fault = .longNumber) ∨ (a.isName = false ∧ fault = .unusableName) := by
  cases a with
  | int i =>
    exact .inl (toJson_error (Outcome.map_error_iff.mp h))
  | binary b =>
    cases h
    exact .inr ⟨rfl, rfl⟩
  | timestamp t =>
    cases h
    exact .inr ⟨rfl, rfl⟩
  | _ => cases h

private theorem Data.setText_ok (h : setText names = .ok t) : ∀ a ∈ names, a.isLong = false := by
  unfold setText at h
  split at h
  · cases h
  · next hlong =>
    intro a ha
    exact Bool.eq_false_iff.mpr fun hmember ↦ hlong (List.any_eq_true.mpr ⟨a, ha, hmember⟩)

private theorem Data.setText_error (h : setText names = .error fault) :
    (Part.set names).Flaw fault := by
  unfold setText at h
  split at h
  · next hlong =>
    cases h
    obtain ⟨a, ha, hmember⟩ := List.any_eq_true.mp hlong
    exact .longMember ha hmember
  · split at h <;> cases h

end Atoms

namespace Data

/-- A part is unfolded with another one. -/
def HasPart (d : Data) (whole part : Nat) : Prop := part ∈ (d.part whole).inner

/-- What a part has that JSON has not: a flaw of its own, or itself inside of it. -/
inductive Defect (d : Data) : Fault → Nat → Prop where
  | circular {id : Nat} : TransGen d.HasPart id id → Defect d .circular id
  | flaw {id : Nat} {fault : Fault} : (d.part id).Flaw fault → Defect d fault id

/-- Neither the whole nor anything in it has a defect. -/
def IsUnfoldable (d : Data) : Prop :=
  ∀ inner, ReflTransGen d.HasPart d.root inner → ∀ fault, ¬d.Defect fault inner

variable {d : Data} {levels id : Nat} {around : List Nat} {fault : Fault} {v : Json}

section Steps

/-- The pairs of a list are unfolded name by name and value by value. -/
private theorem unfoldPairs_ok {pairs : List (Nat × Nat)} {vs : List Json}
    (h : (pairs.mapM fun (name, part) ↦ do
      let k ← d.unfold levels around name
      let v ← d.unfold levels around part
      return (.array [k, v] : Json)) = .ok vs) :
    ∀ part ∈ pairs.flatMap fun p ↦ [p.1, p.2], ∃ w, d.unfold levels around part = .ok w := by
  intro part hpart
  obtain ⟨pair, hpair, hpart⟩ := List.mem_flatMap.mp hpart
  obtain ⟨u, hu⟩ := Outcome.exists_of_mapM_ok h pair hpair
  obtain ⟨k, hk, hu⟩ := Outcome.bind_ok_iff.mp hu
  obtain ⟨w, hw, -⟩ := Outcome.bind_ok_iff.mp hu
  rcases List.mem_pair.mp hpart with rfl | rfl
  · exact ⟨k, hk⟩
  · exact ⟨w, hw⟩

private theorem unfoldPairs_error {pairs : List (Nat × Nat)}
    (h : (pairs.mapM fun (name, part) ↦ do
      let k ← d.unfold levels around name
      let v ← d.unfold levels around part
      return (.array [k, v] : Json)) = .error fault) :
    ∃ part ∈ pairs.flatMap fun p ↦ [p.1, p.2], d.unfold levels around part = .error fault := by
  obtain ⟨pair, hpair, herror⟩ := Outcome.exists_of_mapM_error h
  rcases Outcome.bind_error_iff.mp herror with hname | ⟨k, -, herror⟩
  · exact ⟨pair.1, List.mem_flatMap.mpr ⟨pair, hpair, List.mem_cons_self⟩, hname⟩
  · rcases Outcome.bind_error_iff.mp herror with hvalue | ⟨w, -, herror⟩
    · refine ⟨pair.2, List.mem_flatMap.mpr ⟨pair, hpair, ?_⟩, hvalue⟩
      exact List.mem_cons_of_mem pair.1 List.mem_cons_self
    · cases herror

/-- A part that is unfolded is none of those around it and has no flaw, and its own parts are
unfolded. -/
theorem unfold_ok (h : d.unfold (levels + 1) around id = .ok v) :
    id ∉ around ∧ (∀ fault, ¬(d.part id).Flaw fault) ∧
      ∀ part ∈ (d.part id).inner, ∃ w, d.unfold levels (id :: around) part = .ok w := by
  rw [unfold] at h
  split at h
  · cases h
  next hnew =>
  refine ⟨hnew, ?_⟩
  split at h
  · next a hpart =>
    obtain ⟨hlong, -⟩ := Atom.toJson_ok h
    rw [hpart]
    refine ⟨?_, nofun⟩
    rintro _ (hmember | ⟨⟩ | ⟨⟩ | ⟨⟩)
    exact Bool.false_ne_true (hlong.symm.trans hmember)
  · next names hpart =>
    rw [hpart]
    obtain ⟨t, ht, -⟩ := Outcome.map_ok_iff.mp h
    refine ⟨?_, nofun⟩
    rintro _ (⟨⟩ | ⟨ha, hlong⟩)
    exact Bool.false_ne_true ((setText_ok ht _ ha).symm.trans hlong)
  · next items hpart =>
    rw [hpart]
    obtain ⟨vs, hvs, -⟩ := Outcome.bind_ok_iff.mp h
    exact ⟨nofun, Outcome.exists_of_mapM_ok hvs⟩
  · next entries hpart =>
    rw [hpart]
    obtain ⟨fields, hfields, -⟩ := Outcome.bind_ok_iff.mp h
    have hentry : ∀ entry ∈ entries, (entry.1.isLong = false ∧ entry.1.isName = true) ∧
        ∃ w, d.unfold levels (id :: around) entry.2 = .ok w := by
      intro entry hentry
      obtain ⟨field, hfield⟩ := Outcome.exists_of_mapM_ok hfields entry hentry
      obtain ⟨t, hname, hfield⟩ := Outcome.bind_ok_iff.mp hfield
      obtain ⟨w, hw, -⟩ := Outcome.bind_ok_iff.mp hfield
      exact ⟨Atom.name_ok hname, w, hw⟩
    refine ⟨?_, List.forall_mem_map.mpr fun entry he ↦ (hentry entry he).2⟩
    rintro _ (⟨⟩ | ⟨⟩ | ⟨he, hlong⟩ | ⟨he, hname⟩)
    · exact Bool.false_ne_true ((hentry _ he).1.1.symm.trans hlong)
    · exact Bool.false_ne_true (hname.symm.trans (hentry _ he).1.2)
  · next listed hpart =>
    rw [hpart]
    obtain ⟨vs, hvs, -⟩ := Outcome.bind_ok_iff.mp h
    exact ⟨nofun, unfoldPairs_ok hvs⟩

/-- A part that is not unfolded is one of those around it, has a flaw, or has a part that is not
unfolded. -/
theorem unfold_error (h : d.unfold (levels + 1) around id = .error fault) :
    (id ∈ around ∧ fault = .circular) ∨ (d.part id).Flaw fault ∨
      (id ∉ around ∧
        ∃ part ∈ (d.part id).inner, d.unfold levels (id :: around) part = .error fault) := by
  rw [unfold] at h
  split at h
  · next haround =>
    cases h
    exact .inl ⟨haround, rfl⟩
  next hnew =>
  refine .inr ?_
  split at h
  · next a hpart =>
    rw [hpart]
    obtain ⟨hlong, rfl⟩ := Atom.toJson_error h
    exact .inl (.long hlong)
  · next names hpart =>
    rw [hpart]
    exact .inl (setText_error (Outcome.map_error_iff.mp h))
  · next items hpart =>
    rw [hpart]
    rcases Outcome.bind_error_iff.mp h with h | ⟨vs, -, h⟩
    · exact .inr ⟨hnew, Outcome.exists_of_mapM_error h⟩
    · cases h
  · next entries hpart =>
    rw [hpart]
    rcases Outcome.bind_error_iff.mp h with h | ⟨fields, -, h⟩
    · obtain ⟨entry, hentry, herror⟩ := Outcome.exists_of_mapM_error h
      rcases Outcome.bind_error_iff.mp herror with hname | ⟨t, -, herror⟩
      · rcases Atom.name_error hname with ⟨hlong, rfl⟩ | ⟨hkind, rfl⟩
        · exact .inl (.longName hentry hlong)
        · exact .inl (.unusableName hentry hkind)
      · rcases Outcome.bind_error_iff.mp herror with herror | ⟨w, -, herror⟩
        · exact .inr ⟨hnew, entry.2, List.mem_map_of_mem hentry, herror⟩
        · cases herror
    · cases h
  · next listed hpart =>
    rw [hpart]
    rcases Outcome.bind_error_iff.mp h with h | ⟨vs, -, h⟩
    · exact .inr ⟨hnew, unfoldPairs_error h⟩
    · cases h

/-- A part that is made of parts is one of the data. -/
theorem lt_size_of_hasPart {part : Nat} (h : d.HasPart id part) : id < d.parts.size := by
  by_contra hid
  have hpart : d.part id = .simple .null := by
    rw [Data.part, Array.getElem?_eq_none (Nat.le_of_not_lt hid)]
    rfl
  rw [HasPart, hpart] at h
  cases h

end Steps

section Runs

variable {inner : Nat}

/-- What is in an unfolded part is unfolded, and is none of the parts around. -/
theorem unfold_ok_of_reaches (h : d.unfold levels around id = .ok v)
    (hinner : ReflTransGen d.HasPart id inner) :
    inner ∉ around ∧ ∃ less within w, d.unfold less within inner = .ok w := by
  -- The parts around only grow on the way to the inner part.
  induction hinner using ReflTransGen.head_induction_on generalizing levels around v with
  | refl =>
    cases levels with
    | zero => cases h
    | succ levels => exact ⟨(unfold_ok h).1, _, _, _, h⟩
  | head hpart _ ih =>
    cases levels with
    | zero => cases h
    | succ levels =>
      obtain ⟨w, hw⟩ := (unfold_ok h).2.2 _ hpart
      exact ⟨fun hmem ↦ (ih hw).1 (List.mem_cons_of_mem _ hmem), (ih hw).2⟩

/-- An unfolded part has no defect. -/
theorem not_defect_of_unfold_ok (h : d.unfold levels around id = .ok v) : ¬d.Defect fault id := by
  cases levels with
  | zero => cases h
  | succ levels =>
    obtain ⟨-, hflaw, hparts⟩ := unfold_ok h
    rintro (hcircular | hown)
    · -- A part on the way back to this one would have met it among those around.
      obtain ⟨part, hpart, hreaches⟩ := TransGen.head'_iff.mp hcircular
      obtain ⟨w, hw⟩ := hparts part hpart
      exact (unfold_ok_of_reaches hw hreaches).1 List.mem_cons_self
    · exact hflaw fault hown

/-- Different parts of the data are no more than it has. -/
private theorem length_le_size {ids : List Nat} (hnodup : ids.Nodup)
    (h : ∀ a ∈ ids, a < d.parts.size) : ids.length ≤ d.parts.size := by
  have hsub : ids ⊆ List.range d.parts.size := fun a ha ↦ List.mem_range.mpr (h a ha)
  have hle := (List.subperm_of_subset hnodup hsub).length_le
  rwa [List.length_range] at hle

/-- What is not unfolded has a defect in it, if there are levels for all parts that are not yet
around. -/
theorem exists_defect_of_unfold_error {rest : Nat} (hnodup : around.Nodup)
    (haround : ∀ a ∈ around, a < d.parts.size ∧ TransGen d.HasPart a id)
    (hrest : d.parts.size ≤ around.length + rest)
    (h : d.unfold (rest + 1) around id = .error fault) :
    ∃ inner, ReflTransGen d.HasPart id inner ∧ d.Defect fault inner := by
  -- A part with parts is a further one of the data, so each level takes one off the rest.
  induction rest using Nat.strongRecOn generalizing around id with
  | _ rest ih =>
  rcases unfold_error h with ⟨hmem, rfl⟩ | hflaw | ⟨hnew, part, hpart, herror⟩
  · exact ⟨id, .refl, .circular (haround id hmem).2⟩
  · exact ⟨id, .refl, .flaw hflaw⟩
  · have hid : id < d.parts.size := lt_size_of_hasPart hpart
    have hnodup' : (id :: around).Nodup := List.nodup_cons.mpr ⟨hnew, hnodup⟩
    have haround' : ∀ a ∈ id :: around, a < d.parts.size ∧ TransGen d.HasPart a part :=
      List.forall_mem_cons.mpr ⟨⟨hid, .single hpart⟩, fun a ha ↦
        ⟨(haround a ha).1, (haround a ha).2.tail hpart⟩⟩
    have hroom := length_le_size hnodup' fun a ha ↦ (haround' a ha).1
    rw [List.length_cons] at hroom
    obtain ⟨less, rfl⟩ : ∃ less, rest = less + 1 := ⟨rest - 1, by omega⟩
    obtain ⟨inner, hinner, hdefect⟩ := ih less (Nat.lt_succ_self less) hnodup' haround'
      (by rw [List.length_cons]; omega) herror
    exact ⟨inner, .head hpart hinner, hdefect⟩

/-- Data that is not unfolded has the defect in it that is reported. -/
theorem exists_defect_of_toJson_error (h : d.toJson = .error fault) :
    ∃ inner, ReflTransGen d.HasPart d.root inner ∧ d.Defect fault inner :=
  exists_defect_of_unfold_error .nil nofun (Nat.le_add_left _ _) h

/-- Data is unfolded exactly if nothing in it has a defect. -/
theorem toJson_isOk_iff (d : Data) : (∃ v, d.toJson = .ok v) ↔ d.IsUnfoldable := by
  constructor
  · rintro ⟨v, hv⟩ inner hinner fault
    obtain ⟨-, less, within, w, hw⟩ := unfold_ok_of_reaches hv hinner
    exact not_defect_of_unfold_ok hw
  · intro h
    cases hjson : d.toJson with
    | ok v => exact ⟨v, rfl⟩
    | error fault =>
      obtain ⟨inner, hinner, hdefect⟩ := exists_defect_of_toJson_error hjson
      exact absurd hdefect (h inner hinner fault)

end Runs

section Results

/-- The whole numbers of what is unfolded can all be written. -/
theorem numbersWithin_of_unfold_ok (h : d.unfold levels around id = .ok v) :
    v.NumbersWithin (some Text.digitLimit) := by
  induction levels generalizing around id v with
  | zero => cases h
  | succ levels ih =>
    rw [unfold] at h
    split at h
    · cases h
    split at h
    · obtain ⟨hlong, rfl⟩ := Atom.toJson_ok h
      exact Atom.numbersWithin_plain hlong
    · obtain ⟨t, -, rfl⟩ := Outcome.map_ok_iff.mp h
      exact .string t
    · obtain ⟨vs, hvs, hv⟩ := Outcome.bind_ok_iff.mp h
      cases hv
      exact .array (Outcome.forall_of_mapM_ok hvs fun _ _ hw ↦ ih hw)
    · obtain ⟨fields, hfields, hv⟩ := Outcome.bind_ok_iff.mp h
      cases hv
      refine .object (Outcome.forall_of_mapM_ok hfields ?_)
      rintro entry field hfield
      obtain ⟨t, -, hfield⟩ := Outcome.bind_ok_iff.mp hfield
      obtain ⟨w, hw, hfield⟩ := Outcome.bind_ok_iff.mp hfield
      cases hfield
      exact ih hw
    · obtain ⟨vs, hvs, hv⟩ := Outcome.bind_ok_iff.mp h
      cases hv
      refine .array (Outcome.forall_of_mapM_ok hvs ?_)
      rintro pair u hu
      obtain ⟨k, hk, hu⟩ := Outcome.bind_ok_iff.mp hu
      obtain ⟨w, hw, hu⟩ := Outcome.bind_ok_iff.mp hu
      cases hu
      exact .array (List.forall_mem_cons.mpr ⟨ih hk, List.forall_mem_singleton.mpr (ih hw)⟩)

/-- A mapping is unfolded to an object. -/
theorem exists_object_of_toJson_ok (h : d.toJson = .ok v) (hmapping : d.isMapping = true) :
    ∃ fields, v = .object fields := by
  unfold isMapping at hmapping
  split at hmapping
  · next entries hpart =>
    rw [toJson, unfold, if_neg List.not_mem_nil, hpart] at h
    obtain ⟨fields, -, hv⟩ := Outcome.bind_ok_iff.mp h
    cases hv
    exact ⟨fields, rfl⟩
  · cases hmapping

end Results

end Data

end Yaml

end ApiTools
