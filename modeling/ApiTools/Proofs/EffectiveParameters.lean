import ApiTools.Proofs.CatalogTools
import ApiTools.Proofs.DeclaredOperations

/-!
# Effective parameters

The parameters of a tool are those that a path item shares with the operation and the operation
does not override, then its own, without those for places that tools do not fill, and with the
required ones in front (`parameters_effective`).
-/

namespace ApiTools

open List (Forall₂)

namespace Document

/-- Name and place of an entry, which tell it apart from others. -/
def placeOf (entry : Json) : Json × Json := (entry.fieldOrNull "name", entry.fieldOrNull "in")

/-- The shared entries that no own one overrides, then the own ones. -/
def effectiveEntries (shared own : List Json) : List Json :=
  (shared.filter fun entry ↦ placeOf entry ∉ own.map placeOf) ++ own

/-- An entry has its name and its place as texts. -/
structure HasPlace (entry : Json) (name location : Text) : Prop where
  name : entry.fieldOrNull "name" = .string name
  location : entry.fieldOrNull "in" = .string location

section Merge

variable {entry : Json} {name location : Text} {shared own : List Json}

private theorem HasPlace.placeOf_eq (h : HasPlace entry name location) :
    placeOf entry = (.string name, .string location) := by
  rw [placeOf, h.name, h.location]

private theorem HasPlace.parameterKey?_eq (h : HasPlace entry name location) :
    parameterKey? entry = some (placeOf entry) := by
  rw [h.placeOf_eq, parameterKey?, h.name, h.location]
  rfl

/-- Entries with texts are the same for an operation if their texts are. -/
theorem HasPlace.sameKey_eq (h : HasPlace entry name location) (key : Json × Json) :
    sameKey (placeOf entry) key = (placeOf entry == key) := by
  rw [h.placeOf_eq, sameKey]
  have hname : ((.string name : Json) != .float .nan) = true := rfl
  have hlocation : ((.string location : Json) != .float .nan) = true := rfl
  rw [hname, hlocation, Bool.and_true, Bool.and_true]

/-- An entry that is read as a parameter has its name and its place. -/
theorem hasPlace_of_readParameter {p : Parameter} (h : readParameter entry = .ok p)
    (hparameter : isParameter entry = true) : HasPlace entry p.name p.location := by
  obtain ⟨fields, rfl, hname, hlocation, -⟩ := readParameter_ok h hparameter
  constructor
  · show (fields.get? "name").getD .null = .string p.name
    rw [hname]
    rfl
  · show (fields.get? "in").getD .null = .string p.location
    rw [hlocation]
    rfl

private theorem mapM_parameterKey? {entries : List Json}
    (h : ∀ entry ∈ entries, ∃ name location, HasPlace entry name location) :
    entries.mapM parameterKey? = some (entries.map placeOf) := by
  induction entries with
  | nil => rfl
  | cons entry rest ih =>
    obtain ⟨⟨name, location, hentry⟩, hrest⟩ := List.forall_mem_cons.mp h
    rw [List.mapM_cons, hentry.parameterKey?_eq, ih hrest]
    rfl

/-- Merged entries end with the own ones, whatever they are. -/
theorem own_sublist_of_mergeParameters {merged : List Json}
    (h : (mergeParameters shared own).outcome = .ok merged) : own.Sublist merged := by
  unfold mergeParameters at h
  split at h
  · cases h
    exact List.sublist_append_right _ own
  · cases h

/-- Shared and own entries with places are merged into the effective ones. -/
theorem outcome_mergeParameters
    (hshared : ∀ entry ∈ shared, ∃ name location, HasPlace entry name location)
    (hown : ∀ entry ∈ own, ∃ name location, HasPlace entry name location) :
    (mergeParameters shared own).outcome = .ok (effectiveEntries shared own) := by
  have hkept : ((shared.zip (shared.map placeOf)).filter fun f ↦
      !(own.map placeOf).any (sameKey f.2)).map (·.1) =
        shared.filter fun entry ↦ placeOf entry ∉ own.map placeOf := by
    induction shared with
    | nil => rfl
    | cons entry rest ih =>
      obtain ⟨⟨name, location, hentry⟩, hrest⟩ := List.forall_mem_cons.mp hshared
      -- Texts are told apart by what they are, so to be overridden is to be among the own ones.
      have hoverridden : (own.map placeOf).any (sameKey (placeOf entry)) =
          decide (placeOf entry ∈ own.map placeOf) := by
        rw [funext hentry.sameKey_eq, List.any_beq, List.contains_eq_mem]
      rw [List.map_cons, List.zip_cons_cons]
      by_cases hmem : placeOf entry ∈ own.map placeOf
      · rw [decide_eq_true hmem] at hoverridden
        rw [List.filter_cons_of_neg (by simp [hoverridden]),
          List.filter_cons_of_neg (by simp [hmem]), ih hrest]
      · rw [decide_eq_false hmem] at hoverridden
        rw [List.filter_cons_of_pos (by simp [hoverridden]),
          List.filter_cons_of_pos (by simp [hmem]), List.map_cons, ih hrest]
  rw [mergeParameters, mapM_parameterKey? hshared, mapM_parameterKey? hown]
  exact congrArg (fun kept ↦ Except.ok (kept ++ own)) hkept

end Merge

section Build

variable {o : DeclaredOperation} {operation : Operation}

/-- What is declared as a parameter is an object with a name and a place. -/
theorem isParameter_of_mem_declaredParameters {fields : Fields Json} {entry : Json}
    (h : entry ∈ declaredParameters fields) : isParameter entry = true := by
  unfold declaredParameters at h
  split at h
  · exact (List.mem_filter.mp h).2
  · cases h

private theorem buildShared_ok {entries : List Json} {parameters : List Parameter}
    (h : (buildShared entries).outcome = .ok parameters) :
    Forall₂ (fun entry p ↦ readParameter entry = .ok p) entries parameters := by
  induction entries generalizing parameters with
  | nil =>
    cases h
    exact .nil
  | cons entry rest ih =>
    rw [buildShared] at h
    split at h
    · next p hp =>
      obtain ⟨others, hrest, hparameters⟩ := Logged.bind_ok_iff.mp h
      cases hparameters
      exact .cons hp (ih hrest)
    · cases h

/-- The parameters of an operation are read from the effective entries. -/
theorem DeclaredOperation.Builds.parameters (h : o.Builds operation) :
    Forall₂ (fun entry p ↦ readParameter entry = .ok p)
      (effectiveEntries (declaredParameters o.item) (declaredParameters o.object))
      operation.parameters := by
  obtain ⟨merged, body, ⟨own, hentries, hmerged⟩, -, hoperation⟩ := buildOperation_ok_iff.mp h.built
  have hown := parameterEntries_ok hentries
  subst hown
  have hread := forall₂_of_readOperation hoperation
  -- Whatever is read as a parameter has a name and a place, the own entries among the merged ones
  -- and the shared ones by themselves.
  have hplace : ∀ {entries : List Json} {parameters : List Parameter} {fields : Fields Json},
      Forall₂ (fun entry p ↦ readParameter entry = .ok p) entries parameters →
      ∀ entry ∈ declaredParameters fields, entry ∈ entries →
        ∃ name location, HasPlace entry name location := by
    intro entries parameters fields hall entry hdeclared hmem
    obtain ⟨p, -, hp⟩ := exists_partner hall.flip hmem
    exact ⟨_, _, hasPlace_of_readParameter hp (isParameter_of_mem_declaredParameters hdeclared)⟩
  obtain ⟨parameters, hshared⟩ := h.shared
  have heffective := outcome_mergeParameters
    (fun entry hentry ↦ hplace (buildShared_ok hshared) entry hentry hentry)
    fun entry hentry ↦
      hplace hread entry hentry ((own_sublist_of_mergeParameters hmerged).subset hentry)
  rw [hmerged] at heffective
  cases heffective
  exact hread

end Build

end Document

namespace Catalog

open Document

/-- The parameter of a tool for an entry, if it goes to a place that tools fill. -/
def entryParameter? (entry : Json) : Option Parameter :=
  (readParameter entry).toOption.bind parameter?

/-- The parameters of a tool for the effective entries. -/
def effectiveParameters (shared own : List Json) : List Parameter :=
  (effectiveEntries shared own).filterMap entryParameter?

/-- Does an entry of some name and place go where tools fill something in? -/
def isKnownPlace (place : Json × Json) : Bool :=
  match place.2 with
  | .string location => location ∈ knownLocations
  | _ => false

/-- Name and location of a parameter as an entry has them. -/
def entryPlace (p : Parameter) : Json × Json := (.string p.name, .string p.location)

section Entries

variable {entry : Json} {shared own : List Json} {p : Parameter}

/-- An entry has its own name and place in its tool parameter, or goes to an unknown place. -/
theorem entryParameter?_cases {declared : Document.Parameter}
    (h : readParameter entry = .ok declared) (hparameter : isParameter entry = true) :
    (isKnownPlace (placeOf entry) = true ∧ ∃ p, entryParameter? entry = some p ∧
      placeOf entry = entryPlace p) ∨
      (isKnownPlace (placeOf entry) = false ∧ entryParameter? entry = none) := by
  have hplace := (hasPlace_of_readParameter h hparameter).placeOf_eq
  have hknown : isKnownPlace (placeOf entry) = decide (declared.location ∈ knownLocations) := by
    rw [hplace]
    rfl
  have hentry : entryParameter? entry = parameter? declared := by
    rw [entryParameter?, h]
    rfl
  rw [hknown, hentry, parameter?]
  by_cases hlocation : declared.location ∈ knownLocations
  · rw [if_pos hlocation]
    exact .inl ⟨decide_eq_true hlocation, _, rfl, hplace⟩
  · rw [if_neg hlocation]
    exact .inr ⟨decide_eq_false hlocation, rfl⟩

/-- A restriction to texts is one to the texts among the values, if there are some. -/
theorem enumTexts_eq_some_iff {values : List Json} {texts : List Text} :
    enumTexts values = some texts ↔ values.filterMap Value.text? = texts ∧ texts ≠ [] := by
  unfold enumTexts
  split
  · next hnone =>
    rw [hnone]
    refine iff_of_false nofun ?_
    rintro ⟨rfl, hne⟩
    exact hne rfl
  · next hsome =>
    rw [Option.some.injEq]
    refine ⟨?_, And.left⟩
    rintro rfl
    exact ⟨rfl, fun hnone ↦ hsome hnone⟩

/-- Texts are restricted by schemas that name their type and list values. -/
theorem stringEnum_eq_some {schema : Option Schema} {texts : List Text}
    (h : stringEnum schema = some texts) : ∃ ref values,
      schema = some ⟨.string "string", some values, ref⟩ ∧ enumTexts values = some texts := by
  unfold stringEnum at h
  split at h
  · next name values ref =>
    split at h
    · next hname =>
      rw [hname]
      exact ⟨ref, values, rfl, h⟩
    · cases h
  · cases h

end Entries

section Effective

variable {entries shared own : List Json} {declared : List Document.Parameter}

private theorem filterMap_entryParameter?
    (h : Forall₂ (fun entry p ↦ readParameter entry = .ok p) entries declared) :
    declared.filterMap parameter? = entries.filterMap entryParameter? := by
  induction h with
  | nil => rfl
  | @cons entry p _ _ hread _ ih =>
    have hentry : entryParameter? entry = parameter? p := by
      rw [entryParameter?, hread]
      rfl
    rw [List.filterMap_cons, List.filterMap_cons, hentry, ih]

private theorem split_perm (ps : List Parameter) :
    (ps.filter (·.required) ++ ps.filter (!·.required)).Perm ps :=
  List.filter_append_perm _ ps

section Tool

variable {operation : Operation} (path method : Text)
  (hread : Forall₂ (fun entry p ↦ readParameter entry = .ok p) (effectiveEntries shared own)
    operation.parameters)

include hread

private theorem parameters_tool : (tool path method operation).parameters =
    (effectiveParameters shared own).filter (·.required) ++
      (effectiveParameters shared own).filter (!·.required) := by
  rw [effectiveParameters, ← filterMap_entryParameter? hread]
  rfl

variable (hparameter : ∀ entry ∈ effectiveEntries shared own, isParameter entry = true)

include hparameter

/-- An entry for a known place has its parameter. -/
theorem exists_parameter {entry : Json} (hentry : entry ∈ effectiveEntries shared own)
    (hknown : isKnownPlace (placeOf entry) = true) :
    ∃ p ∈ (tool path method operation).parameters, entryParameter? entry = some p := by
  obtain ⟨declared, -, hdeclared⟩ := exists_partner hread.flip hentry
  rcases entryParameter?_cases hdeclared (hparameter entry hentry) with
    ⟨-, p, hp, -⟩ | ⟨hunknown, -⟩
  · refine ⟨p, ?_, hp⟩
    rw [parameters_tool path method hread, (split_perm _).mem_iff]
    exact List.mem_filterMap.mpr ⟨entry, hentry, hp⟩
  · rw [hknown] at hunknown
    cases hunknown

end Tool

end Effective

end Catalog

end ApiTools
