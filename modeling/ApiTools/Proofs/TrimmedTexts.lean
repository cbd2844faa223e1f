import Mathlib.Data.List.TakeWhile
import ApiTools.Text.Basic

/-!
# Trimmed texts

A text is trimmed when no code point of a class stands at either end. Trimming takes code points of
the class away at both ends (`Text.exists_trim`) and leaves a trimmed text (`Text.isTrimmed_trim`).
-/

namespace ApiTools

namespace Text

/-- All code points of a text are of a class. -/
def IsAll (p : CodePoint → Bool) (t : Text) : Prop := ∀ c ∈ t, p c = true

instance (p : CodePoint → Bool) (t : Text) : Decidable (IsAll p t) :=
  inferInstanceAs (Decidable (∀ c ∈ t, _))

/-- No code point of a class stands at either end of a text. -/
def IsTrimmed (p : CodePoint → Bool) (t : Text) : Prop :=
  t.head?.any p = false ∧ t.getLast?.any p = false

instance (p : CodePoint → Bool) (t : Text) : Decidable (IsTrimmed p t) :=
  inferInstanceAs (Decidable (_ ∧ _))

variable {p : CodePoint → Bool} {t u : Text}

/-- What all code points of a text are, they are in the other order. -/
theorem IsAll.reverse (hu : IsAll p u) : IsAll p u.reverse :=
  fun c hc ↦ hu c (List.mem_reverse.mp hc)

/-- What all code points of two texts are, those of both together are. -/
theorem IsAll.append (ht : IsAll p t) (hu : IsAll p u) : IsAll p (t ++ u) :=
  List.forall_mem_append.mpr ⟨ht, hu⟩

/-! ### At one end -/

private theorem exists_trimLeft (p : CodePoint → Bool) (t : Text) :
    ∃ before, IsAll p before ∧ t = before ++ trimLeft p t :=
  ⟨t.takeWhile p, fun _ hc ↦ List.mem_takeWhile_imp hc, List.takeWhile_append_dropWhile.symm⟩

private theorem trimRight_eq_reverse (p : CodePoint → Bool) (t : Text) :
    trimRight p t = (trimLeft p t.reverse).reverse := rfl

private theorem exists_trimRight (p : CodePoint → Bool) (t : Text) :
    ∃ after, IsAll p after ∧ t = trimRight p t ++ after := by
  obtain ⟨before, hbefore, ht⟩ := exists_trimLeft p t.reverse
  refine ⟨before.reverse, hbefore.reverse, ?_⟩
  rw [trimRight_eq_reverse, ← List.reverse_append, ← ht, List.reverse_reverse]

private theorem trimLeft_of_isAll (hu : IsAll p u) : trimLeft p u = [] :=
    List.dropWhile_eq_nil_iff.mpr hu

/-- What is trimmed away can stand at the start. -/
theorem trimLeft_append (hu : IsAll p u) (t : Text) : trimLeft p (u ++ t) = trimLeft p t :=
  List.dropWhile_append_of_pos hu

private theorem trimRight_append (hu : IsAll p u) (t : Text) : trimRight p (t ++ u) = trimRight p
    t := by
  rw [trimRight_eq_reverse, List.reverse_append, trimLeft_append hu.reverse, ← trimRight_eq_reverse]

/-- Nothing is trimmed away exactly if the first code point stays. -/
theorem trimLeft_eq_self_iff : trimLeft p t = t ↔ t.head?.any p = false := by
  cases t with
  | nil => exact iff_of_true rfl rfl
  | cons c t =>
    have hlength : (trimLeft p t).length ≤ t.length := (List.dropWhile_suffix p).length_le
    rw [trimLeft, List.dropWhile_cons, List.head?_cons, Option.any_some]
    cases hc : p c with
    | false => exact iff_of_true rfl rfl
    | true =>
      refine iff_of_false (fun h ↦ ?_) nofun
      have hsame := congrArg List.length h
      rw [if_pos rfl, ← trimLeft, List.length_cons] at hsame
      omega

private theorem trimRight_eq_self_iff : trimRight p t = t ↔ t.getLast?.any p = false := by
  rw [trimRight_eq_reverse, List.reverse_eq_iff, trimLeft_eq_self_iff, List.head?_reverse]

/-! ### At both ends -/

/-- A text is what trimming leaves, with what it takes away around it. -/
theorem exists_trim (p : CodePoint → Bool) (t : Text) :
    ∃ before after, IsAll p before ∧ IsAll p after ∧ t = before ++ (trim p t ++ after) := by
  obtain ⟨before, hbefore, hleft⟩ := exists_trimLeft p t
  obtain ⟨after, hafter, hright⟩ := exists_trimRight p (trimLeft p t)
  refine ⟨before, after, hbefore, hafter, ?_⟩
  rw [trim, ← hright]
  exact hleft

/-- Trimming makes no text longer. -/
theorem length_trim_le (p : CodePoint → Bool) (t : Text) : (trim p t).length ≤ t.length := by
  obtain ⟨before, after, -, -, ht⟩ := exists_trim p t
  have hlength := congrArg List.length ht
  rw [List.length_append, List.length_append] at hlength
  omega

/-- What stands around a text is taken away with what is taken away from the text. -/
theorem trim_append {before after : Text} (hbefore : IsAll p before) (hafter : IsAll p after)
    (t : Text) : trim p (before ++ (t ++ after)) = trim p t := by
  rw [trim, trim, trimLeft_append hbefore]
  by_cases ht : trimLeft p t = []
  · have hall : IsAll p t := List.dropWhile_eq_nil_iff.mp ht
    rw [ht, trimLeft_of_isAll (hall.append hafter)]
  · have hcons : trimLeft p (t ++ after) = trimLeft p t ++ after := by
      rw [trimLeft, List.dropWhile_append, if_neg (by rwa [List.isEmpty_iff])]
      rfl
    rw [hcons, trimRight_append hafter]

/-- Trimming leaves exactly the trimmed texts as they are. -/
theorem trim_eq_self_iff : trim p t = t ↔ IsTrimmed p t := by
  rw [IsTrimmed, ← trimLeft_eq_self_iff, ← trimRight_eq_self_iff]
  constructor
  · intro h
    obtain ⟨before, -, hleft⟩ := exists_trimLeft p t
    obtain ⟨after, -, hright⟩ := exists_trimRight p (trimLeft p t)
    rw [← trim, h] at hright
    have hlengths := congrArg List.length hleft
    have hlengths' := congrArg List.length hright
    rw [List.length_append] at hlengths hlengths'
    have hnil : before = [] := List.length_eq_zero_iff.mp (by omega)
    have hself : trimLeft p t = t := by rw [hnil] at hleft; exact hleft.symm
    exact ⟨hself, by rw [trim, hself] at h; exact h⟩
  · rintro ⟨hleft, hright⟩
    rw [trim, hleft, hright]

/-- There is nothing to be trimmed away twice. -/
theorem isTrimmed_trim (p : CodePoint → Bool) (t : Text) : IsTrimmed p (trim p t) := by
  obtain ⟨before, after, hbefore, hafter, ht⟩ := exists_trim p t
  rw [← trim_eq_self_iff, ← trim_append hbefore hafter, ← ht]

end Text

end ApiTools
