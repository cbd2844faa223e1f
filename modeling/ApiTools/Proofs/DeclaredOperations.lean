import Mathlib.Data.List.Induction
import ApiTools.Proofs.Correspondence
import ApiTools.Proofs.MethodNames
import ApiTools.Proofs.ReadDocuments
import ApiTools.Tool.Catalog

/-!
# Declared operations

A document declares an operation at every key of a path item that names a method and holds an
object; of keys that differ in letter case alone, the first one gives the place and the last one the
object. If the document has a model, the tools of its catalog are those of the declared operations,
one for each and in the same order (`forall₂_ofDocument`).
-/

namespace ApiTools

open List (Forall₂)
open Fields (Corresponds)

namespace Fields

variable {α β : Type}

/-- Setting related values one after the other keeps the correspondence. -/
theorem Corresponds.update {R : Text → α → β → Prop} {fields others : Fields α}
    {fields' others' : Fields β} (h : Corresponds R fields fields')
    (hothers : Corresponds R others others') :
    Corresponds R (fields.update others) (fields'.update others') := by
  induction hothers generalizing fields fields' with
  | nil => exact h
  | @cons f g _ _ hfg _ ih =>
    obtain ⟨name, v⟩ := f
    obtain ⟨_, w⟩ := g
    obtain ⟨rfl, hvalue⟩ := hfg
    exact ih (h.set hvalue)

/-- Corresponding settings leave corresponding fields. -/
theorem Corresponds.ofList {R : Text → α → β → Prop} {settings : Fields α} {others : Fields β}
    (h : Corresponds R settings others) : Corresponds R (ofList settings) (ofList others) :=
  Corresponds.update .nil h

/-- A name at the end counts unless it occurs before. -/
theorem eraseDups_concat (names : List Text) (name : Text) :
    (names ++ [name]).eraseDups =
      if name ∈ names then names.eraseDups else names.eraseDups ++ [name] := by
  rw [List.eraseDups_append]
  split
  · next hold => simp [List.removeAll, hold]
  · next hnew => simp [List.removeAll, hnew, List.eraseDups_cons]

/-- The names that settings leave stand where they first occur. -/
theorem names_ofList (settings : Fields α) :
    (ofList settings).names = settings.names.eraseDups := by
  induction settings using List.reverseRecOn with
  | nil => rfl
  | append_singleton before f ih =>
    have hstep : ofList (before ++ [f]) = (ofList before).set f.1 f.2 := by
      rw [ofList, update, List.foldl_append]
      rfl
    have hname : names [f] = [f.1] := rfl
    rw [hstep, names_set, names_append, hname, eraseDups_concat, ih]
    simp only [List.mem_eraseDups]

end Fields

namespace Document

/-- The fields that hold objects. -/
def objects (fields : Fields Json) : Fields (Fields Json) :=
  fields.filterMap fun f ↦ f.2.fields?.map (f.1, ·)

/-- The path items of a decoded document. -/
def pathItems (spec : Json) : Fields (Fields Json) :=
  match spec.field? "paths" with
  | some (.object paths) => objects paths
  | _ => []

/-- The objects at the keys of a path item that name methods, by their methods in upper case. -/
def methodObjects (item : Fields Json) : Fields (Fields Json) :=
  ((objects item).filter fun f ↦ Spec.isMethod f.1).map fun f ↦ (f.1.toUpper, f.2)

/-- An operation as a document declares it. -/
structure DeclaredOperation where
  path : Text
  /-- The method in upper case. -/
  method : Text
  /-- The path item around the operation. -/
  item : Fields Json
  object : Fields Json

/-- The operations that a decoded document declares, path by path and by the first key of each
method, with the object of the last one. -/
def declaredOperations (spec : Json) : List DeclaredOperation :=
  (pathItems spec).flatMap fun (path, item) ↦
    (Fields.ofList (methodObjects item)).map fun (method, object) ↦ ⟨path, method, item, object⟩

namespace DeclaredOperation

/-- A declared operation has a model: it is built with the parameters that its path item shares,
which have models themselves. -/
structure Builds (o : DeclaredOperation) (operation : Operation) : Prop where
  upper : o.method.toUpper = o.method
  shared : ∃ parameters, (buildShared (declaredParameters o.item)).outcome = .ok parameters
  built : (buildOperation o.path o.method (declaredParameters o.item) o.object).outcome =
    .ok operation

/-- A tool is that of a declared operation. -/
def HasTool (o : DeclaredOperation) (tool : Tool) : Prop :=
  ∃ operation, o.Builds operation ∧ tool = Catalog.tool o.path o.method operation

end DeclaredOperation

section Objects

variable {fields : Fields Json}

/-- The objects among some fields are those whose values are objects. -/
theorem mem_objects_iff {f : Text × Fields Json} :
    f ∈ objects fields ↔ (f.1, Value.object f.2) ∈ fields := by
  obtain ⟨name, node⟩ := f
  unfold objects
  rw [List.mem_filterMap]
  constructor
  · rintro ⟨⟨other, v⟩, hmem, hobject⟩
    cases v with
    | object fields =>
      cases hobject
      exact hmem
    | _ => cases hobject
  · intro hmem
    exact ⟨_, hmem, rfl⟩

/-- The fields that hold objects stand in the order of all fields. -/
theorem names_objects_sublist (fields : Fields Json) :
    (objects fields).names.Sublist fields.names := by
  induction fields with
  | nil => exact .slnil
  | cons f rest ih =>
    obtain ⟨name, v⟩ := f
    cases v with
    | object node => exact ih.cons_cons name
    | _ => exact ih.cons name

/-- The objects of methods are those under their names, in whatever letter case. -/
theorem mem_methodObjects_iff {method : Text} {object : Fields Json} :
    (method, object) ∈ methodObjects fields ↔
      ∃ key, (key, Value.object object) ∈ fields ∧ Spec.isMethod key = true ∧
        key.toUpper = method := by
  unfold methodObjects
  rw [List.mem_map]
  constructor
  · rintro ⟨f, hf, hmethod⟩
    obtain ⟨hmem, hkey⟩ := List.mem_filter.mp hf
    cases hmethod
    exact ⟨f.1, mem_objects_iff.mp hmem, hkey, rfl⟩
  · rintro ⟨key, hmem, hkey, rfl⟩
    exact ⟨(key, object), List.mem_filter.mpr ⟨mem_objects_iff.mpr hmem, hkey⟩, rfl⟩

end Objects

section Build

/-- At one field of a path item, the object at a method is built, and nothing happens otherwise. -/
theorem buildOperations_step (path : Text) (shared : List Json) (f : Text × Json)
    (rest : Fields Json) (operations : Fields Operation) :
    (∃ object, Spec.isMethod f.1 = true ∧
      methodObjects (f :: rest) = (f.1.toUpper, object) :: methodObjects rest ∧
      buildOperations path shared (f :: rest) operations =
        buildOperation path f.1 shared object >>= fun operation ↦
          buildOperations path shared rest (operations.set f.1.toUpper operation)) ∨
      (methodObjects (f :: rest) = methodObjects rest ∧
        buildOperations path shared (f :: rest) operations =
          buildOperations path shared rest operations) := by
  obtain ⟨key, v⟩ := f
  by_cases hkey : Spec.isMethod key = true
  · cases v with
    | object object =>
      refine .inl ⟨object, hkey, ?_, ?_⟩
      · simp [methodObjects, objects, hkey, Value.fields?]
      · simp only [buildOperations, hkey]
    | _ => exact .inr ⟨rfl, by simp only [buildOperations, hkey]⟩
  · refine .inr ⟨?_, by simp only [buildOperations, hkey]⟩
    cases v <;> simp [methodObjects, objects, hkey, Value.fields?]

/-- The operations of a path item are built of its objects at methods, one after the other. -/
theorem buildOperations_ok {path : Text} {shared : List Json} {item : Fields Json}
    {operations built : Fields Operation}
    (h : (buildOperations path shared item operations).outcome = .ok built) :
    ∃ own : Fields Operation, Corresponds (fun method object operation ↦
        method.toUpper = method ∧
          (buildOperation path method shared object).outcome = .ok operation)
      (methodObjects item) own ∧ built = operations.update own := by
  -- The operations that are there already change from key to key.
  induction item generalizing operations with
  | nil =>
    cases h
    exact ⟨[], .nil, rfl⟩
  | cons f rest ih =>
    rcases buildOperations_step path shared f rest operations with
      ⟨object, hkey, hcons, hstep⟩ | ⟨hskip, hstep⟩
    · rw [hstep] at h
      obtain ⟨operation, hoperation, hrest⟩ := Logged.bind_ok_iff.mp h
      obtain ⟨own, hown, rfl⟩ := ih hrest
      rw [buildOperation_ok_iff] at hoperation
      have hbuilt : f.1.toUpper.toUpper = f.1.toUpper ∧
          (buildOperation path f.1.toUpper shared object).outcome = .ok operation :=
        ⟨Spec.toUpper_toUpper_of_isMethod hkey, buildOperation_ok_iff.mpr hoperation⟩
      rw [hcons]
      exact ⟨(f.1.toUpper, operation) :: own, .cons ⟨rfl, hbuilt⟩ hown, rfl⟩
    · rw [hstep] at h
      rw [hskip]
      exact ih h

/-- The operations of a path item are those that it declares, each method once. -/
theorem buildPathItem_ok {path : Text} {item : Fields Json} {pathItem : PathItem}
    (h : (buildPathItem path item).outcome = .ok pathItem) :
    Corresponds (fun method object ↦ DeclaredOperation.Builds ⟨path, method, item, object⟩)
      (Fields.ofList (methodObjects item)) pathItem.operations := by
  simp only [buildPathItem, Logged.bind_ok_iff] at h
  obtain ⟨shared, hentries, operations, hoperations, parameters, hparameters, hitem⟩ := h
  cases hitem
  have hshared := parameterEntries_ok hentries
  subst hshared
  obtain ⟨own, hown, rfl⟩ := buildOperations_ok hoperations
  refine Corresponds.ofList (hown.imp fun _ _ ⟨hname, hupper, hbuilt⟩ ↦ ⟨hname, hupper, ?_, hbuilt⟩)
  exact ⟨parameters, hparameters⟩

/-- The path items of a model are those of the objects among the paths. -/
theorem buildPaths_ok {fields : Fields Json} {paths : Fields PathItem}
    (h : (buildPaths fields).outcome = .ok paths) :
    Corresponds (fun path item pathItem ↦ (buildPathItem path item).outcome = .ok pathItem)
      (objects fields) paths := by
  induction fields generalizing paths with
  | nil =>
    cases h
    exact .nil
  | cons f rest ih =>
    obtain ⟨path, v⟩ := f
    cases v with
    | object item =>
      simp only [buildPaths, Logged.bind_ok_iff] at h
      obtain ⟨pathItem, hitem, others, hrest, hpaths⟩ := h
      cases hpaths
      exact .cons ⟨rfl, hitem⟩ (ih hrest)
    | _ => exact ih h

private theorem paths_of_readDocument {spec : Fields Json} {paths : Fields PathItem}
    {document : Document}
    (h : readDocument spec paths = .ok document) : document.paths = paths := by
  simp only [readDocument, also, Checked.both_ok_iff, Except.ok.injEq] at h
  obtain ⟨_, _, ⟨_, _, ⟨_, _, ⟨_, _, rfl, _, rfl⟩, _, rfl⟩, _, rfl⟩, _, rfl⟩ := h
  rfl

/-- The path items of a document's model are those of its path items. -/
theorem ofSpec_ok {spec : Json} {document : Document}
    (h : (ofSpec spec).outcome = .ok document) :
    Corresponds (fun path item pathItem ↦ (buildPathItem path item).outcome = .ok pathItem)
      (pathItems spec) document.paths := by
  unfold ofSpec at h
  split at h
  · next fields =>
    split at h
    · next items hitems =>
      obtain ⟨paths, hpaths, hread⟩ := Logged.bind_ok_iff.mp h
      have hdocument : document.paths = paths := by
        split at hread
        · next other hother =>
          cases hread
          exact paths_of_readDocument hother
        · cases hread
      have hobjects : pathItems (.object fields) = objects items := by
        show (match Fields.get? fields "paths" with
          | some (.object paths) => objects paths
          | _ => []) = objects items
        cases hget : Fields.get? fields "paths" with
        | none =>
          rw [hget] at hitems
          cases hitems
          rfl
        | some v =>
          rw [hget, Option.getD_some, orElse] at hitems
          split at hitems
          · next hblank =>
            cases hitems
            cases v with
            | object others => rw [List.isEmpty_iff.mp hblank]
            | _ => rfl
          · rw [hitems]
      rw [hobjects, hdocument]
      exact buildPaths_ok hpaths
    · cases h
  · cases h

/-- The tools of a document's model are those of the operations that the document declares, one for
each and in the same order. -/
theorem forall₂_ofDocument {spec : Json} {document : Document}
    (h : (ofSpec spec).outcome = .ok document) :
    Forall₂ DeclaredOperation.HasTool (declaredOperations spec) (Catalog.ofDocument document) := by
  unfold declaredOperations Catalog.ofDocument
  refine List.rel_flatMap (ofSpec_ok h) ?_
  rintro ⟨path, item⟩ ⟨_, pathItem⟩ ⟨rfl, hitem⟩
  refine List.rel_map ?_ (buildPathItem_ok hitem)
  rintro ⟨method, object⟩ ⟨_, operation⟩ ⟨rfl, hbuilds⟩
  refine ⟨operation, hbuilds, ?_⟩
  show Catalog.tool path method.toUpper operation = Catalog.tool path method operation
  rw [hbuilds.upper]

/-- The operations of a document are under the names of methods. -/
def NamesMethods (document : Document) : Prop :=
  ∀ item ∈ document.paths, ∀ operation ∈ item.2.operations, Spec.isMethod operation.1 = true

/-- A document that is read has operations under the names of methods alone. -/
theorem namesMethods_of_ofSpec {spec : Json} {document : Document}
    (h : (ofSpec spec).outcome = .ok document) : document.NamesMethods := by
  rintro ⟨path, pathItem⟩ hitem ⟨method, operation⟩ hoperation
  obtain ⟨⟨_, item⟩, -, rfl, hbuilt⟩ := exists_partner (ofSpec_ok h) hitem
  obtain ⟨⟨_, object⟩, hobject, rfl, -⟩ := exists_partner (buildPathItem_ok hbuilt) hoperation
  obtain ⟨key, -, hkey, rfl⟩ := mem_methodObjects_iff.mp (Fields.mem_of_mem_ofList hobject)
  exact Spec.isMethod_toUpper hkey

end Build

end Document

namespace Catalog

/-- The tools of a catalog that is not strict are those of all operations. -/
theorem outcome_build_false (document : Document) :
    (build false document).outcome = .ok (ofDocument document) := by
  rw [build, if_neg fun h ↦ Bool.false_ne_true h.1]

end Catalog

end ApiTools
