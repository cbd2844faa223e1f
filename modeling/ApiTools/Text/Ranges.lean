import ApiTools.Text.Basic

/-!
# Classes of code points given by ranges

A class is a list of ranges, ends included, in rising order. Membership stops at the first
range that starts behind the code point.
-/

namespace ApiTools

namespace CodePoint

/-- Is the number inside one of the rising ranges? -/
def within : List (Nat × Nat) → Nat → Bool
  | [], _ => false
  | (first, last) :: rest, n => first ≤ n && (n ≤ last || within rest n)

/-- A number accepted by ranges lies in one of them. -/
theorem exists_of_within {ranges : List (Nat × Nat)} {n : Nat} (h : within ranges n = true) :
    ∃ r ∈ ranges, r.1 ≤ n ∧ n ≤ r.2 := by
  induction ranges with
  | nil => simp [within] at h
  | cons r rest ih =>
    simp only [within, Bool.and_eq_true, Bool.or_eq_true, decide_eq_true_eq] at h
    rcases h with ⟨hfirst, hlast | hrest⟩
    · exact ⟨r, by simp, hfirst, hlast⟩
    · obtain ⟨s, hs, bounds⟩ := ih hrest
      exact ⟨s, by simp [hs], bounds⟩

end CodePoint

end ApiTools
