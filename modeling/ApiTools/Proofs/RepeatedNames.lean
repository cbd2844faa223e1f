import Mathlib.Data.Set.Card
import ApiTools.Proofs.SharedIdentifiers

/-!
# Repeated names

A name is repeated if it occurs more than once. The repeated names of a list are each listed once,
in the order of their first occurrences (`areRepeated_repeated`). What collides are the repeated
identifiers of some tools, and a tool has repeated parameters exactly if two of them are sanitized to
one name.
-/

namespace ApiTools

namespace Catalog

/-- Some texts are those that several of some names are, each once and in the order of their first
occurrences. -/
structure AreRepeated (listed names : List Text) : Prop where
  mem_iff : ∀ name, name ∈ listed ↔ 2 ≤ names.count name
  nodup : listed.Nodup
  ordered : listed.Pairwise fun m n ↦ names.idxOf m < names.idxOf n

/-- Several parameters of a tool are sanitized to one name. -/
def SharesNames (tool : Tool) : Prop :=
  ∃ p q, [p, q].Sublist tool.parameters ∧ p.sanitizedName = q.sanitizedName

section Repeated

/-- Repeated names are among the names. -/
theorem AreRepeated.subset {listed names : List Text} (h : AreRepeated listed names) :
    listed ⊆ names := by
  intro name hname
  have hmany := (h.mem_iff name).mp hname
  exact List.count_pos_iff.mp (by omega)

/-- Names without those that occur before stand in the order of their first occurrences. -/
theorem pairwise_eraseDups (names : List Text) :
    names.eraseDups.Pairwise fun m n ↦ names.idxOf m < names.idxOf n := by
  induction names using List.reverseRecOn with
  | nil => exact .nil
  | append_singleton before name ih =>
    have hbefore : before.eraseDups.Pairwise fun m n ↦
        (before ++ [name]).idxOf m < (before ++ [name]).idxOf n := by
      refine ih.imp_of_mem fun {m n} hm hn hlt ↦ ?_
      rw [List.mem_eraseDups] at hm hn
      rwa [List.idxOf_append_of_mem hm, List.idxOf_append_of_mem hn]
    rw [Fields.eraseDups_concat]
    split
    · exact hbefore
    · next hnew =>
      refine List.pairwise_append.mpr ⟨hbefore, List.pairwise_singleton _ _, ?_⟩
      intro m hm n hn
      rw [List.mem_eraseDups] at hm
      rw [List.mem_singleton] at hn
      subst hn
      rw [List.idxOf_append_of_mem hm, List.idxOf_append_of_notMem hnew]
      have hlt := List.idxOf_lt_length_iff.mpr hm
      omega

private theorem nodup_eraseDups (names : List Text) : names.eraseDups.Nodup :=
  (pairwise_eraseDups names).imp fun hlt heq ↦ by
    rw [heq] at hlt
    exact lt_irrefl _ hlt

private theorem repeated_eq (names : List Text) :
    repeated names = names.eraseDups.filter fun name ↦ 1 < names.count name := by
  have hnames : (names.map fun name ↦ (name, ())).map Prod.fst = names := by
    rw [List.map_map]
    exact List.map_id names
  rw [repeated, Fields.names_ofList, Fields.names, hnames]

/-- The names that are listed as repeated are those that occur more than once, each where it first
does. -/
theorem areRepeated_repeated (names : List Text) : AreRepeated (repeated names) names := by
  rw [repeated_eq]
  refine ⟨fun name ↦ ?_, (nodup_eraseDups names).filter _, (pairwise_eraseDups names).filter _⟩
  rw [List.mem_filter, List.mem_eraseDups, decide_eq_true_eq]
  constructor
  · exact fun h ↦ h.2
  · intro hmany
    exact ⟨List.count_pos_iff.mp (by omega), hmany⟩

example : repeated (["c", "b", "a", "b", "a", "b"].map Text.ofString) =
    ["b", "a"].map Text.ofString := by
  decide

/-- A tool's parameters share a name exactly if one of their names is repeated. -/
theorem repeatedParameters_ne_nil_iff (tool : Tool) :
    repeatedParameters tool ≠ [] ↔ SharesNames tool := by
  have hnodup : (tool.parameters.map (·.sanitizedName)).Nodup ↔ ¬SharesNames tool := by
    rw [List.Nodup, List.pairwise_map, List.pairwise_iff_forall_sublist]
    simp [SharesNames]
  rw [← not_iff_not, ne_eq, not_not, ← hnodup, List.nodup_iff_count_le_one,
    List.eq_nil_iff_forall_not_mem]
  refine forall_congr' fun name ↦ ?_
  rw [repeatedParameters, (areRepeated_repeated _).mem_iff]
  omega

end Repeated

/-- The identifiers that collide are those that are repeated. -/
theorem names_collisions (tools : List Tool) :
    (collisions tools).names = repeated (tools.map (·.id)) := by
  rw [collisions_eq, repeated_eq, Fields.names, List.map_map]
  exact List.map_id _

/-- As many identifiers collide as there are that several tools have. -/
theorem length_collisions (tools : List Tool) :
    (collisions tools).length = Set.ncard {id | 2 ≤ (tools.filter (·.id = id)).length} := by
  have hids := areRepeated_repeated (tools.map (·.id))
  have hset : {id | 2 ≤ (tools.filter (·.id = id)).length} =
      ((repeated (tools.map (·.id))).toFinset : Set Text) := by
    ext id
    rw [List.coe_toFinset, Set.mem_ofPred_eq, Set.mem_ofPred_eq, hids.mem_iff, length_filter_id]
  rw [hset, Set.ncard_coe_finset, List.toFinset_card_of_nodup hids.nodup, ← names_collisions,
    Fields.names, List.length_map]

end Catalog

end ApiTools
