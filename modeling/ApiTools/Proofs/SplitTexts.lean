import ApiTools.Text.Basic

/-!
# Splitting texts

A text is cut at the first place of a separator and split at each of them, so pieces without the
separator are found again in what they are joined to (`Text.splitOn_join`).
-/

namespace ApiTools

namespace Text

variable {sep : CodePoint} {t u : Text}

/-- A text is cut where the separator first occurs. -/
theorem cut_append_cons (ht : sep ∉ t) (u : Text) : cut sep (t ++ sep :: u) = (t, some u) := by
  induction t with
  | nil => rw [List.nil_append, cut, if_pos rfl]
  | cons c t ih =>
    rw [List.mem_cons, not_or] at ht
    rw [List.cons_append, cut, if_neg (Ne.symm ht.1), ih ht.2]

/-- A text without the separator is not cut. -/
theorem cut_of_notMem (ht : sep ∉ t) : cut sep t = (t, none) := by
  induction t with
  | nil => rfl
  | cons c t ih =>
    rw [List.mem_cons, not_or] at ht
    rw [cut, if_neg (Ne.symm ht.1), ih ht.2]

/-- The separator is not before the place where a text is cut. -/
theorem notMem_cut (sep : CodePoint) (t : Text) : sep ∉ (cut sep t).1 := by
  induction t with
  | nil => exact List.not_mem_nil
  | cons c t ih =>
    rw [cut]
    split
    · exact List.not_mem_nil
    · next hc =>
      rw [List.mem_cons, not_or]
      exact ⟨Ne.symm hc, ih⟩

/-- A text without the separator is its only piece. -/
theorem splitOn_of_notMem (ht : sep ∉ t) : splitOn sep t = [t] := by
  induction t with
  | nil => rfl
  | cons c t ih =>
    rw [List.mem_cons, not_or] at ht
    rw [splitOn, if_neg (Ne.symm ht.1), ih ht.2]

/-- Splitting never gives an empty list. -/
theorem splitOn_ne_nil (sep : CodePoint) (t : Text) : splitOn sep t ≠ [] := by
  cases t with
  | nil => exact List.cons_ne_nil _ _
  | cons c t =>
    rw [splitOn]
    split
    · exact List.cons_ne_nil _ _
    · split <;> exact List.cons_ne_nil _ _

/-- What stands before a separator and what stands behind it are split apart. -/
theorem splitOn_append (sep : CodePoint) (t u : Text) :
    splitOn sep (t ++ sep :: u) = splitOn sep t ++ splitOn sep u := by
  induction t with
  | nil => simp [splitOn]
  | cons c t ih =>
    rw [List.cons_append, splitOn, splitOn, ih]
    split
    · rfl
    · cases hpieces : splitOn sep t with
      | nil => exact absurd hpieces (splitOn_ne_nil sep t)
      | cons piece pieces => rfl

/-- A piece without the separator is found again before it. -/
theorem splitOn_append_cons (ht : sep ∉ t) (u : Text) :
    splitOn sep (t ++ sep :: u) = t :: splitOn sep u := by
  rw [splitOn_append, splitOn_of_notMem ht, List.singleton_append]

/-- The separator is in no piece. -/
theorem notMem_of_mem_splitOn : ∀ piece ∈ splitOn sep t, sep ∉ piece := by
  induction t with
  | nil => simp [splitOn]
  | cons c t ih =>
    rw [splitOn]
    split
    · exact List.forall_mem_cons.mpr ⟨List.not_mem_nil, ih⟩
    · next hc =>
      cases hpieces : splitOn sep t with
      | nil => exact absurd hpieces (splitOn_ne_nil sep t)
      | cons piece pieces =>
        rw [hpieces, List.forall_mem_cons] at ih
        refine List.forall_mem_cons.mpr ⟨?_, ih.2⟩
        rw [List.mem_cons, not_or]
        exact ⟨Ne.symm hc, ih.1⟩

/-- Every code point but the separator is in some piece. -/
theorem exists_mem_splitOn {c : CodePoint} (hc : c ∈ t) (hsep : c ≠ sep) :
    ∃ piece ∈ splitOn sep t, c ∈ piece := by
  obtain ⟨before, after, rfl⟩ := List.append_of_mem hc
  induction before with
  | nil =>
    rw [List.nil_append, splitOn, if_neg hsep]
    split
    · exact ⟨_, List.mem_cons_self, List.mem_cons_self⟩
    · exact ⟨_, List.mem_cons_self, List.mem_cons_self⟩
  | cons d before ih =>
    obtain ⟨piece, hpiece, hmem⟩ := ih (List.mem_append_right _ List.mem_cons_self)
    rw [List.cons_append, splitOn]
    split
    · exact ⟨piece, List.mem_cons_of_mem _ hpiece, hmem⟩
    · cases hpieces : splitOn sep (before ++ c :: after) with
      | nil => exact absurd hpieces (splitOn_ne_nil _ _)
      | cons first pieces =>
        rw [hpieces] at hpiece
        rcases List.mem_cons.mp hpiece with rfl | hpiece
        · exact ⟨_, List.mem_cons_self, List.mem_cons_of_mem d hmem⟩
        · exact ⟨piece, List.mem_cons_of_mem _ hpiece, hmem⟩

/-- What texts are joined to holds them. -/
theorem subset_join {sep : Text} {ts : List Text} (ht : t ∈ ts) : t ⊆ join sep ts := by
  induction ts with
  | nil => cases ht
  | cons u rest ih =>
    cases rest with
    | nil =>
      rw [List.mem_singleton.mp ht, join, List.intercalate_singleton]
      exact List.Subset.refl _
    | cons v rest =>
      rw [join, List.intercalate_cons_cons]
      rcases List.mem_cons.mp ht with rfl | ht
      · exact List.Subset.trans (List.subset_append_left t sep) (List.subset_append_left _ _)
      · exact List.Subset.trans (ih ht) (List.subset_append_right _ _)

/-- Texts without the separator are the pieces of what they are joined to. -/
theorem splitOn_join {ts : List Text} (hne : ts ≠ []) (hts : ∀ t ∈ ts, sep ∉ t) :
    splitOn sep (join [sep] ts) = ts := by
  induction ts with
  | nil => exact absurd rfl hne
  | cons t rest ih =>
    obtain ⟨ht, hrest⟩ := List.forall_mem_cons.mp hts
    cases rest with
    | nil =>
      rw [join, List.intercalate_singleton]
      exact splitOn_of_notMem ht
    | cons u rest =>
      rw [join, List.intercalate_cons_cons, List.append_assoc, List.singleton_append,
        splitOn_append_cons ht]
      exact congrArg (t :: ·) (ih (List.cons_ne_nil _ _) hrest)

end Text

end ApiTools
