import Mathlib.Data.List.Nodup
import ApiTools.Tool.Identifier

/-!
# Fresh names

A name made unique is not among the names that are taken: of its suffixed forms, which differ from
each other, one more is tried than there are names taken.
-/

namespace ApiTools

namespace CodePoint

private theorem ofChar_injective : Function.Injective ofChar := by
  intro c d h
  exact Char.ext (UInt32.toNat_inj.mp (congrArg CodePoint.val h))

end CodePoint

namespace Text

/-- Different numbers have different notations. -/
theorem ofNat_injective : Function.Injective ofNat := by
  intro m n h
  have hdigits : Nat.toDigits 10 m = Nat.toDigits 10 n :=
    List.map_injective_iff.mpr CodePoint.ofChar_injective h
  rw [← Nat.ofDigitChars_ten_toDigits (n := m), hdigits, Nat.ofDigitChars_ten_toDigits]

end Text

namespace Identifier

private theorem suffixed_injective (name : Text) : Function.Injective (suffixed name) := by
  intro j k h
  exact Text.ofNat_injective (List.append_cancel_left h)

/-- The search ends at the first free number, if there is one not beyond its bound. -/
theorem firstFree_spec (name : Text) (taken : List Text) (bound k : Nat)
    (h : ∃ j, k ≤ j ∧ j ≤ k + bound ∧ suffixed name j ∉ taken) :
    suffixed name (firstFree name taken bound k) ∉ taken ∧
      k ≤ firstFree name taken bound k ∧
      ∀ j, k ≤ j → j < firstFree name taken bound k → suffixed name j ∈ taken := by
  induction bound generalizing k with
  | zero =>
    obtain ⟨j, hle, hlt, hfree⟩ := h
    have hj : j = k := by omega
    rw [firstFree]
    exact ⟨hj ▸ hfree, Nat.le_refl k, fun j hj hlt ↦ absurd hlt (by omega)⟩
  | succ bound ih =>
    rw [firstFree]
    split
    · next htaken =>
      have hnext : ∃ j, k + 1 ≤ j ∧ j ≤ k + 1 + bound ∧ suffixed name j ∉ taken := by
        obtain ⟨j, hle, hlt, hfree⟩ := h
        have hne : j ≠ k := fun e ↦ hfree (e ▸ htaken)
        exact ⟨j, by omega, by omega, hfree⟩
      obtain ⟨hfree, hle, hbelow⟩ := ih (k + 1) hnext
      refine ⟨hfree, by omega, fun j hj hlt ↦ ?_⟩
      by_cases hjk : j = k
      · exact hjk ▸ htaken
      · exact hbelow j (by omega) hlt
    · next hfree => exact ⟨hfree, Nat.le_refl k, fun j hj hlt ↦ absurd hlt (by omega)⟩

/-- Among one more suffixed form than there are names taken, one is free. -/
theorem exists_suffixed_notMem (name : Text) (taken : List Text) :
    ∃ j, 2 ≤ j ∧ j ≤ 2 + taken.length ∧ suffixed name j ∉ taken := by
  apply Classical.byContradiction
  intro h
  have hsubset : (List.range' 2 (taken.length + 1)).map (suffixed name) ⊆ taken := by
    intro t ht
    obtain ⟨j, hj, rfl⟩ := List.mem_map.mp ht
    rw [List.mem_range'_1] at hj
    exact Classical.byContradiction fun hfree ↦ h ⟨j, hj.1, by omega, hfree⟩
  have hnodup : ((List.range' 2 (taken.length + 1)).map (suffixed name)).Nodup :=
    List.Nodup.map (suffixed_injective name) List.nodup_range'
  have hlength := hnodup.length_le_of_subset hsubset
  rw [List.length_map, List.length_range'] at hlength
  omega

/-- A name made unique is the name itself or one of its suffixed forms. -/
theorem unique_cases (name : Text) (taken : List Text) :
    unique name taken = name ∨ ∃ k, unique name taken = suffixed name k := by
  rw [unique]
  split
  · exact .inr ⟨_, rfl⟩
  · exact .inl rfl

/-- A name made unique is none of those taken. -/
theorem unique_notMem (name : Text) (taken : List Text) : unique name taken ∉ taken := by
  rw [unique]
  split
  · exact (firstFree_spec name taken taken.length 2 (exists_suffixed_notMem name taken)).1
  · next h => exact h

end Identifier

end ApiTools
