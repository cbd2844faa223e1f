import Mathlib.Order.Bounds.Basic
import ApiTools.Proofs.FreshName
import ApiTools.Proofs.Signatures

/-!
# Unique names

The search for a number that makes a name free has no bound of its own. It ends since the numbered
forms of a name differ from each other and only finitely many names are taken, and it ends at the
least number from 2 on (`search_iff`). Names that are made unique one after the other are distinct
and none of those taken before, and each that is free at its turn is kept. The functions of a server
and the arguments of each of them get their names in this way (`unique_fresh_and_least`).
-/

namespace ApiTools

namespace Identifier

variable {name given : Text} {names taken others : List Text} {k j : Nat}

/-- The search for a number that makes a name free, from `k` on and as long as it takes: it stops
at `j`. -/
inductive Search (name : Text) (taken : List Text) : (k j : Nat) → Prop where
  | stop {k : Nat} : suffixed name k ∉ taken → Search name taken k k
  | next {k j : Nat} : suffixed name k ∈ taken → Search name taken (k + 1) j →
    Search name taken k j

/-- A name is made free of those taken. If it is free it is kept; else the search ends, and the name
gets the least number from 2 on that makes it free. -/
structure IsFreed (name : Text) (taken : List Text) (given : Text) : Prop where
  free : given ∉ taken
  kept : name ∉ taken → given = name
  numbered : name ∈ taken → ∃ k, Search name taken 2 k ∧
    IsLeast {j | 2 ≤ j ∧ suffixed name j ∉ taken} k ∧ given = suffixed name k

/-- Names are told apart from each other and from those taken, in turn: at its own, each name is
made free of those taken at first and of those given until then. -/
structure AreToldApart (names taken given : List Text) : Prop where
  length : given.length = names.length
  distinct : given.Nodup
  disjoint : given.Disjoint taken
  turn : ∀ (i : Nat) (name : Text), names[i]? = some name →
    ∃ g, given[i]? = some g ∧ IsFreed name (given.take i ++ taken) g

/-- Names made unique one after the other, each taken from then on. -/
def uniqueEach : (names taken : List Text) → List Text
  | [], _ => []
  | name :: rest, taken =>
    let given := unique name taken
    given :: uniqueEach rest (given :: taken)

section Search

/-- The search stops exactly at the least number that makes the name free. -/
theorem search_iff :
    Search name taken k j ↔ IsLeast {i | k ≤ i ∧ suffixed name i ∉ taken} j := by
  constructor
  · intro h
    induction h with
    | stop hfree => exact ⟨⟨Nat.le_refl _, hfree⟩, fun i hi ↦ hi.1⟩
    | @next k j htaken _ ih =>
      obtain ⟨⟨hle, hfree⟩, hleast⟩ := ih
      refine ⟨⟨by omega, hfree⟩, fun i hi ↦ hleast ⟨?_, hi.2⟩⟩
      have hne : i ≠ k := fun heq ↦ hi.2 (heq ▸ htaken)
      have hki : k ≤ i := hi.1
      omega
  · rintro ⟨⟨hle, hfree⟩, hleast⟩
    -- The numbers before the least one are all taken, so the search goes past each of them.
    obtain ⟨d, rfl⟩ := Nat.exists_eq_add_of_le hle
    clear hle
    induction d generalizing k with
    | zero => exact .stop hfree
    | succ d ih =>
      have hshift : k + (d + 1) = k + 1 + d := by omega
      have htaken : suffixed name k ∈ taken := by
        by_contra hk
        have hcontra := hleast ⟨Nat.le_refl k, hk⟩
        omega
      rw [hshift] at hfree hleast ⊢
      have hbelow : k + 1 + d ∈ lowerBounds {i | k + 1 ≤ i ∧ suffixed name i ∉ taken} := by
        intro i hi
        exact hleast ⟨Nat.le_of_succ_le hi.1, hi.2⟩
      exact .next htaken (ih hbelow hfree)

/-- The search from 2 on ends, and where the bounded one does. -/
theorem search_firstFree (name : Text) (taken : List Text) :
    Search name taken 2 (firstFree name taken taken.length 2) := by
  obtain ⟨hfree, hle, hbelow⟩ :=
    firstFree_spec name taken taken.length 2 (exists_suffixed_notMem name taken)
  refine search_iff.mpr ⟨⟨hle, hfree⟩, fun i hi ↦ ?_⟩
  by_contra hlt
  exact hi.2 (hbelow i hi.1 (by omega))

/-- Only what is taken counts for the search, not in which order or how often. -/
theorem Search.congr (h : Search name taken k j) (htaken : ∀ t, t ∈ taken ↔ t ∈ others) :
    Search name others k j := by
  induction h with
  | stop hfree => exact .stop fun hmem ↦ hfree ((htaken _).mpr hmem)
  | next hmem _ ih => exact .next ((htaken _).mp hmem) ih

end Search

section Freed

private theorem isFreed_unique (name : Text) (taken : List Text) :
    IsFreed name taken (unique name taken) where
  free := unique_notMem name taken
  kept h := by rw [unique, if_neg h]
  numbered h := by
    have hsearch := search_firstFree name taken
    exact ⟨_, hsearch, search_iff.mp hsearch, by rw [unique, if_pos h]⟩

/-- What frees a name from some names does so in whatever order they are. -/
theorem IsFreed.congr (h : IsFreed name taken given) (htaken : ∀ t, t ∈ taken ↔ t ∈ others) :
    IsFreed name others given where
  free hmem := h.free ((htaken _).mpr hmem)
  kept hname := h.kept fun hmem ↦ hname ((htaken _).mp hmem)
  numbered hname := by
    obtain ⟨k, hsearch, -, hgiven⟩ := h.numbered ((htaken _).mpr hname)
    have hothers := hsearch.congr htaken
    exact ⟨k, hothers, search_iff.mp hothers, hgiven⟩

/-- There is one way to make a name free. -/
theorem IsFreed.eq_unique (h : IsFreed name taken given) : given = unique name taken := by
  have hunique := isFreed_unique name taken
  by_cases hname : name ∈ taken
  · obtain ⟨k, -, hk, hgiven⟩ := h.numbered hname
    obtain ⟨j, -, hj, hother⟩ := hunique.numbered hname
    rw [hgiven, hother, hk.unique hj]
  · rw [h.kept hname, hunique.kept hname]

end Freed

section Each

private theorem length_uniqueEach (names taken : List Text) :
    (uniqueEach names taken).length = names.length := by
  induction names generalizing taken with
  | nil => rfl
  | cons name rest ih => rw [uniqueEach, List.length_cons, List.length_cons, ih]

/-- Names made unique one after the other are told apart. -/
theorem areToldApart_uniqueEach (names taken : List Text) :
    AreToldApart names taken (uniqueEach names taken) := by
  induction names generalizing taken with
  | nil => exact ⟨rfl, List.nodup_nil, List.disjoint_nil_left taken, nofun⟩
  | cons name rest ih =>
    obtain ⟨hlength, hdistinct, hdisjoint, hturn⟩ := ih (unique name taken :: taken)
    obtain ⟨hfirst, hrest⟩ := List.disjoint_cons_right.mp hdisjoint
    refine ⟨length_uniqueEach _ _, List.nodup_cons.mpr ⟨hfirst, hdistinct⟩,
      List.disjoint_cons_left.mpr ⟨unique_notMem name taken, hrest⟩, ?_⟩
    intro i other hother
    cases i with
    | zero =>
      cases hother
      exact ⟨_, rfl, isFreed_unique name taken⟩
    | succ i =>
      obtain ⟨g, hg, hfreed⟩ := hturn i other hother
      refine ⟨g, hg, hfreed.congr fun t ↦ ?_⟩
      simp only [uniqueEach, List.take_succ_cons, List.mem_append, List.mem_cons]
      tauto

end Each

end Identifier

namespace Emission

open Identifier (AreToldApart IsFreed Search areToldApart_uniqueEach isFreed_unique search_iff
  suffixed unique uniqueEach)

variable {tools : List Tool} {ps : List Parameter} {taken : List Text} {fs : List Function}
  {own : List Argument}

/-- The functions of tools have the tools' identifiers, made unique one after the other. -/
theorem names_eq_uniqueEach (h : functionsFrom tools taken = .ok fs) :
    fs.map (·.name) = uniqueEach (tools.map fun tool ↦ identifier tool.id) taken := by
  induction tools generalizing taken fs with
  | nil =>
    cases h
    rfl
  | cons tool rest ih =>
    rw [functionsFrom_cons] at h
    obtain ⟨as, -, h⟩ := Outcome.bind_ok_iff.mp h
    obtain ⟨more, hmore, rfl⟩ := Outcome.map_ok_iff.mp h
    rw [List.map_cons, List.map_cons, uniqueEach, ih hmore]

/-- The arguments for parameters have the parameters' names, made unique one after the other. -/
theorem identifiers_eq_uniqueEach (h : parameterArguments ps taken = .ok own) :
    own.map (·.identifier) = uniqueEach (ps.map fun p ↦ identifier p.sanitizedName) taken := by
  induction ps generalizing taken own with
  | nil =>
    cases h
    rfl
  | cons p rest ih =>
    rw [parameterArguments_cons] at h
    obtain ⟨type, -, h⟩ := Outcome.bind_ok_iff.mp h
    obtain ⟨more, hmore, rfl⟩ := Outcome.map_ok_iff.mp h
    rw [List.map_cons, List.map_cons, uniqueEach, ih hmore]

/-- A name is made unique by a search that ends, at the least number from 2 on, and only if it is
taken; what counts is the set of names that are taken. Names that are made unique one after the
other are told apart. So are the functions of a server, and the arguments of each function from each
other and from that of the body. -/
theorem unique_fresh_and_least :
    (∀ name taken, IsFreed name taken (unique name taken)) ∧
    (∀ name taken others, (∀ t, t ∈ taken ↔ t ∈ others) →
      unique name taken = unique name others) ∧
    (∀ names taken, AreToldApart names taken (uniqueEach names taken)) ∧
    (∀ tools fs, functions tools = .ok fs →
      AreToldApart ((Catalog.index tools).values.map fun tool ↦ identifier tool.id) []
        (fs.map (·.name))) ∧
    ∀ tool as, arguments tool = .ok as → ∃ own, as.Perm (own ++ bodyArguments tool) ∧
      AreToldApart (tool.parameters.map fun p ↦ identifier p.sanitizedName)
        (InputModel.bodyNames tool) (own.map (·.identifier)) := by
  refine ⟨isFreed_unique, fun name taken others htaken ↦ ?_, areToldApart_uniqueEach, ?_, ?_⟩
  · exact ((isFreed_unique name taken).congr htaken).eq_unique
  · intro tools fs h
    rw [names_eq_uniqueEach h]
    exact areToldApart_uniqueEach _ _
  · intro tool as h
    rw [arguments] at h
    obtain ⟨own, hown, h⟩ := Outcome.bind_ok_iff.mp h
    cases h
    refine ⟨own, List.filter_append_perm (·.required) (own ++ bodyArguments tool), ?_⟩
    rw [identifiers_eq_uniqueEach hown]
    exact areToldApart_uniqueEach _ _

/-- Of two parameters whose names become the same the second is numbered, past a number that is
taken, and so is one that has the name of the body. -/
theorem unique_fresh_and_least_orders :
    (∃ k, Search "a_b" ["a_b", "a_b_2"] 2 k ∧
      unique "a_b" ["a_b", "a_b_2"] = suffixed "a_b" k) ∧
    unique "a_b" ["a_b_2", "a_b", "a_b"] = unique "a_b" ["a_b", "a_b_2"] ∧
    (∃ fs, functions [orders] = .ok fs ∧
      AreToldApart [Text.ofString "post_orders"] [] (fs.map (·.name))) ∧
    ∃ as own, arguments orders = .ok as ∧ as.Perm (own ++ bodyArguments orders) ∧
      AreToldApart (["p_class", "body", "a_b", "a_b"].map Text.ofString)
        [Text.ofString "body"] (own.map (·.identifier)) := by
  obtain ⟨hfreed, hset, -, hfunctions, harguments⟩ := unique_fresh_and_least
  have hsame : ∀ t : Text, t ∈ ["a_b_2", "a_b", "a_b"].map Text.ofString ↔
      t ∈ ["a_b", "a_b_2"].map Text.ofString := by
    intro t
    simp only [List.map_cons, List.map_nil, List.mem_cons]
    tauto
  have htypes : ∀ tool ∈ [orders], ∀ p ∈ tool.parameters, p.IsTyped := fun tool htool p hp ↦
    .inl ((by decide : ∀ tool ∈ [orders], ∀ p ∈ tool.parameters,
      p.primitiveType ∈ primitiveTypes) tool htool p hp)
  obtain ⟨fs, hfs⟩ := (exists_functionsFrom_iff [orders] []).mpr htypes
  obtain ⟨as, has⟩ := (exists_arguments_iff orders).mpr (htypes orders List.mem_cons_self)
  obtain ⟨own, hperm, happart⟩ := harguments orders as has
  obtain ⟨k, hsearch, -, hgiven⟩ :=
    (hfreed "a_b" (["a_b", "a_b_2"].map Text.ofString)).numbered (by decide)
  exact ⟨⟨k, hsearch, hgiven⟩, hset _ _ _ hsame, ⟨fs, hfs, hfunctions [orders] fs hfs⟩, as, own,
    has, hperm, happart⟩

/-- A name that is free at its turn keeps the ones behind it from getting it by a number. -/
example : uniqueEach (["a", "a", "a_2", "a"].map Text.ofString) [] =
    ["a", "a_2", "a_2_2", "a_3"].map Text.ofString := by
  decide

end Emission

end ApiTools
