import ApiTools.Text.Basic

/-!
# Replaced texts

Occurrences of a text are replaced from the left without overlap. What stands before the first one
and what no occurrence reaches into are left as they are, and a text from which occurrences are
removed is shorter unless it has none (`Text.remove_eq_self_iff`).
-/

namespace ApiTools

namespace Text

variable {old t u : Text} {c : CodePoint}

/-- Passing over code points leaves the replacement in what is behind them. -/
theorem replaceFrom_eq (old new : Text) (skip : Nat) (t : Text) :
    replaceFrom old new skip t = replace (t.drop skip) old new := by
  induction t generalizing skip with
  | nil => simp [replace, replaceFrom]
  | cons c t ih =>
    cases skip with
    | zero => rfl
    | succ skip => simpa [replaceFrom] using ih skip

/-- A code point at which no occurrence starts is kept. -/
theorem replace_cons (new : Text) (h : ¬old <+: c :: t) :
    replace (c :: t) old new = c :: replace t old new := by
  have hprefix : old.isPrefixOf (c :: t) = false := by
    rw [← Bool.not_eq_true, List.isPrefixOf_iff_prefix]
    exact h
  simp [replace, replaceFrom, hprefix]

/-- An occurrence at the start is replaced. -/
theorem replace_append (hold : old ≠ []) (new t : Text) :
    replace (old ++ t) old new = new ++ replace t old new := by
  cases old with
  | nil => exact absurd rfl hold
  | cons c old =>
    have hprefix : (c :: old).isPrefixOf (c :: (old ++ t)) = true :=
      List.isPrefixOf_iff_prefix.mpr ⟨t, rfl⟩
    simp only [replace, List.cons_append, replaceFrom, hprefix, ↓reduceIte]
    rw [replaceFrom_eq]
    simp [replace]

/-- No occurrence starts in a text without the first code point of one. -/
theorem replace_append_of_notMem (hu : c ∉ u) (new t : Text) :
    replace (u ++ t) (c :: old) new = u ++ replace t (c :: old) new := by
  induction u with
  | nil => rfl
  | cons d u ih =>
    rw [List.mem_cons, not_or] at hu
    have hprefix : ¬c :: old <+: d :: (u ++ t) := by
      rintro ⟨rest, hrest⟩
      exact hu.1 (List.cons.inj hrest).1
    rw [List.cons_append, replace_cons new hprefix, ih hu.2, List.cons_append]

/-- Every text is empty, or an occurrence before a text, or a code point at which no occurrence
starts before a text. -/
@[elab_as_elim]
theorem occurrence_induction (hold : old ≠ []) {motive : Text → Prop} (nil : motive [])
    (occurrence : ∀ t, motive t → motive (old ++ t))
    (other : ∀ c t, ¬old <+: c :: t → motive t → motive (c :: t)) (t : Text) : motive t := by
  induction hlength : t.length using Nat.strongRecOn generalizing t with
  | ind n ih =>
    subst hlength
    by_cases hprefix : old <+: t
    · obtain ⟨rest, rfl⟩ := hprefix
      have hpos : 0 < old.length := List.length_pos_iff.mpr hold
      exact occurrence rest (ih rest.length (by rw [List.length_append]; omega) rest rfl)
    · cases t with
      | nil => exact nil
      | cons c t => exact other c t hprefix (ih t.length (Nat.lt_succ_self _) t rfl)

/-- An occurrence that starts in front of code points that it does not have ends there. -/
theorem prefix_of_prefix_append (hu : ∀ c ∈ u, c ∉ old) (h : old <+: t ++ u) : old <+: t := by
  rcases List.prefix_or_prefix_of_prefix h (List.prefix_append t u) with hprefix | ⟨rest, rfl⟩
  · exact hprefix
  · -- What the occurrence has behind `t` would be the start of `u`.
    cases rest with
    | nil => simp
    | cons c rest =>
      have hrest := (List.prefix_append_right_inj t).mp h
      exact absurd (List.mem_append_right t List.mem_cons_self)
        (hu c (hrest.subset List.mem_cons_self))

/-- No occurrence reaches into a text with other code points. -/
theorem replace_append_of_disjoint (hold : old ≠ []) (hu : ∀ c ∈ u, c ∉ old) (new t : Text) :
    replace (t ++ u) old new = replace t old new ++ u := by
  induction t using occurrence_induction hold with
  | nil =>
    cases old with
    | nil => exact absurd rfl hold
    | cons c old =>
      have hc : c ∉ u := fun hmem ↦ hu c hmem List.mem_cons_self
      simpa [replace, replaceFrom] using replace_append_of_notMem hc new []
  | occurrence t ih =>
    rw [List.append_assoc, replace_append hold, replace_append hold, ih, List.append_assoc]
  | other c t hprefix ih =>
    have hprefix' : ¬old <+: c :: (t ++ u) := fun h ↦ hprefix (prefix_of_prefix_append hu h)
    rw [List.cons_append, replace_cons new hprefix', replace_cons new hprefix, ih, List.cons_append]

/-- A text without occurrences is kept. -/
theorem replace_eq_self (new : Text) (h : ¬old <:+: t) : replace t old new = t := by
  induction t with
  | nil => rfl
  | cons c t ih =>
    rw [List.infix_cons_iff, not_or] at h
    rw [replace_cons new h.1, ih h.2]

/-- Removing occurrences makes no text longer. -/
theorem length_remove_le (hold : old ≠ []) (t : Text) :
    (replace t old []).length ≤ t.length := by
  induction t using occurrence_induction hold with
  | nil => exact Nat.le_refl _
  | occurrence t ih =>
    rw [replace_append hold, List.nil_append, List.length_append]
    omega
  | other c t hprefix ih =>
    rw [replace_cons [] hprefix, List.length_cons, List.length_cons]
    omega

/-- Removing the occurrences in a text that has one makes it shorter. -/
theorem length_remove_lt (hold : old ≠ []) (h : old <:+: t) :
    (replace t old []).length < t.length := by
  induction t using occurrence_induction hold with
  | nil => exact absurd (List.infix_nil.mp h) hold
  | occurrence t ih =>
    have hpos : 0 < old.length := List.length_pos_iff.mpr hold
    have hle := length_remove_le hold t
    rw [replace_append hold, List.nil_append, List.length_append]
    omega
  | other c t hprefix ih =>
    have hlt := ih ((List.infix_cons_iff.mp h).resolve_left hprefix)
    rw [replace_cons [] hprefix, List.length_cons, List.length_cons]
    omega

/-- Removing occurrences leaves exactly the texts without one as they are. -/
theorem remove_eq_self_iff (hold : old ≠ []) : replace t old [] = t ↔ ¬old <:+: t := by
  refine ⟨fun h hinfix ↦ ?_, replace_eq_self []⟩
  have hlt := length_remove_lt hold hinfix
  rw [h] at hlt
  exact Nat.lt_irrefl _ hlt

end Text

end ApiTools
