import Mathlib.Data.List.Forall2
import ApiTools.Spec.Normal

/-!
# Names of methods

A key that names a method in lower case is made of ASCII letters alone: of all code points only the
letters `A` to `Z` have `a` to `z` as their lower case, but for the Kelvin sign, whose `k` is in no
method. So the upper case of such a key is that of the method's name, and is its own upper case
(`toUpper_toUpper_of_isMethod`).
-/

namespace ApiTools

namespace CodePoint

/-- The letters `a` to `z` without `k`. -/
def IsMethodLetter (d : CodePoint) : Prop := 97 ≤ d.val ∧ d.val ≤ 122 ∧ d.val ≠ 107

instance (d : CodePoint) : Decidable d.IsMethodLetter := inferInstanceAs (Decidable (_ ∧ _))

/-- A number is kept or lies in one of the runs and is moved with it. -/
theorem mapRuns_cases (runs : List CaseRun) (n : Nat) :
    mapRuns runs n = n ∨ ∃ run ∈ runs, run.first ≤ n ∧ n ≤ run.last ∧
      mapRuns runs n = run.target + (n - run.first) := by
  induction runs with
  | nil => exact .inl rfl
  | cons run rest ih =>
    unfold mapRuns
    split
    · exact .inl rfl
    · next hfirst =>
      split
      · next hin => exact .inr ⟨run, List.mem_cons_self, by omega, hin.1, rfl⟩
      · rcases ih with hkept | ⟨other, hmem, hrun⟩
        · exact .inl hkept
        · exact .inr ⟨other, List.mem_cons_of_mem run hmem, hrun⟩

/-- The runs to lower case that reach ASCII are that of its letters and that of the Kelvin sign. -/
theorem lowerRuns_cases : ∀ run ∈ lowerRuns, 122 < run.target ∨
    (run.first = 65 ∧ run.last = 90 ∧ run.target = 97) ∨
    (run.first = 8490 ∧ run.last = 8490 ∧ run.target = 107) := by
  decide +kernel

/-- A number whose lower case is that of a letter in methods is this letter in either case. -/
theorem mapRuns_lowerRuns_cases {n : Nat} (h : 97 ≤ mapRuns lowerRuns n)
    (h' : mapRuns lowerRuns n ≤ 122) (hk : mapRuns lowerRuns n ≠ 107) :
    mapRuns lowerRuns n = n ∨ mapRuns lowerRuns n = n + 32 := by
  rcases mapRuns_cases lowerRuns n with hkept | ⟨run, hmem, hfirst, hlast, hmoved⟩
  · exact .inl hkept
  · rcases lowerRuns_cases run hmem with hfar | ⟨hstart, -, htarget⟩ | ⟨hstart, hend, htarget⟩
    · omega
    · exact .inr (by omega)
    · omega

/-- A code point is replaced by the one of a number, or stays. -/
theorem val_orSelf (c : CodePoint) (n : Nat) :
    (c.orSelf n).val = n ∨ (c.orSelf n).val = c.val := by
  unfold orSelf ofNat?
  split
  · exact .inl rfl
  · exact .inr rfl

/-- A code point beyond ASCII becomes no letter of a method, whether it is moved or kept. -/
theorem not_isMethodLetter_orSelf {c : CodePoint} {n : Nat} (hn : 122 < n) (hc : 122 < c.val) :
    ¬(c.orSelf n).IsMethodLetter := by
  rintro ⟨-, hhigh, -⟩
  rcases val_orSelf c n with hval | hval
  · omega
  · omega

/-- No code point up to the letters of ASCII has a sequence as its upper case. -/
theorem toUpper_of_lt {c : CodePoint} (h : c.val < 223) :
    c.toUpper = [c.orSelf (mapRuns upperRuns c.val)] := by
  have hfirst : ∀ e ∈ upperExpansions, 223 ≤ e.1 := by decide +kernel
  have hnone : upperExpansions.lookup c.val = none := by
    rw [List.lookup_eq_none_iff]
    intro e he
    have hle := hfirst e he
    exact bne_iff_ne.mpr (by omega)
  rw [toUpper, hnone]

/-- The capital of a letter of a method. -/
def capital (d : CodePoint) : CodePoint := ⟨d.val - 32, by have := d.lt; omega⟩

/-- The first code point is the second one, a letter of a method, or its capital. -/
def IsCaseOf (c d : CodePoint) : Prop := d.IsMethodLetter ∧ (d.val = c.val ∨ d.val = c.val + 32)

/-- The upper case of a letter of a method, whichever case it is in, is its capital. -/
theorem IsCaseOf.toUpper_eq {c d : CodePoint} (h : c.IsCaseOf d) : c.toUpper = [d.capital] := by
  obtain ⟨⟨hlow, hhigh, -⟩, hcase⟩ := h
  have hmap : mapRuns upperRuns c.val = d.val - 32 := by
    unfold upperRuns mapRuns
    rcases hcase with hcase | hcase
    · rw [if_neg (by dsimp only; omega), if_pos ⟨by dsimp only; omega, Nat.mod_one _⟩]
      dsimp only
      omega
    · rw [if_pos (by dsimp only; omega)]
      omega
  have hlt : d.val - 32 < 0x110000 := by omega
  rw [toUpper_of_lt (by omega), hmap, orSelf, ofNat?, dif_pos hlt]
  rfl

end CodePoint

namespace Text

open CodePoint (IsCaseOf val_orSelf not_isMethodLetter_orSelf)

/-- A text whose lower case is made of letters of methods has these letters in one case or the
other. -/
theorem forall₂_of_toLowerAfter {before t m : Text} (hm : ∀ d ∈ m, d.IsMethodLetter)
    (h : toLowerAfter before t = m) : List.Forall₂ IsCaseOf t m := by
  induction t generalizing before m with
  | nil =>
    rw [← h]
    exact .nil
  | cons c t ih =>
    unfold toLowerAfter at h
    subst h
    rw [List.forall_mem_append] at hm
    obtain ⟨hhead, htail⟩ := hm
    have hrest := ih htail rfl
    split at hhead
    · -- Both lower cases of a sigma are Greek.
      next hsigma =>
      refine absurd (hhead _ List.mem_cons_self) (not_isMethodLetter_orSelf ?_ (by omega))
      split <;> decide
    · next hsigma =>
      unfold CodePoint.toLower at hhead ⊢
      split at hhead
      · -- The lower case of a capital I with a dot keeps the dot as a mark.
        next hdotted =>
        have hmark := hhead _ (List.mem_cons_of_mem _ List.mem_cons_self)
        exact absurd hmark (not_isMethodLetter_orSelf (by decide) (by omega))
      · next hdotted =>
        rw [if_neg hsigma, if_neg hdotted]
        have hletter := hhead _ List.mem_cons_self
        refine .cons ⟨hletter, ?_⟩ hrest
        obtain ⟨hlow, hhigh, hk⟩ := hletter
        rcases val_orSelf c (CodePoint.mapRuns CodePoint.lowerRuns c.val) with hval | hval
        · rw [hval] at hlow hhigh hk ⊢
          exact CodePoint.mapRuns_lowerRuns_cases hlow hhigh hk
        · exact .inl hval

/-- The upper case of a text of letters of methods is that of their capitals. -/
theorem toUpper_eq_of_forall₂ {t m : Text} (h : List.Forall₂ IsCaseOf t m) :
    t.toUpper = m.map CodePoint.capital := by
  induction h with
  | nil => rfl
  | cons hcase _ ih =>
    show CodePoint.toUpper _ ++ toUpper _ = _
    rw [hcase.toUpper_eq, ih]
    rfl

end Text

namespace Spec

private theorem isMethodLetter_of_mem : ∀ m ∈ methods, ∀ d ∈ m, d.IsMethodLetter := by
  decide +kernel

/-- The upper case of a key that names a method has the lower case of the key. -/
theorem toLower_toUpper_of_isMethod {key : Text} (h : isMethod key = true) :
    key.toUpper.toLower = key.toLower := by
  have hletters := isMethodLetter_of_mem key.toLower (of_decide_eq_true h)
  have hcapitals : ∀ m ∈ methods, Text.toLower (m.map CodePoint.capital) = m := by decide +kernel
  rw [Text.toUpper_eq_of_forall₂ (Text.forall₂_of_toLowerAfter hletters rfl)]
  exact hcapitals key.toLower (of_decide_eq_true h)

/-- The upper case of a key that names a method names it too. -/
theorem isMethod_toUpper {key : Text} (h : isMethod key = true) :
    isMethod key.toUpper = true := by
  rw [isMethod, toLower_toUpper_of_isMethod h]
  exact h

/-- The upper case of a key that names a method is its own upper case. -/
theorem toUpper_toUpper_of_isMethod {key : Text} (h : isMethod key = true) :
    key.toUpper.toUpper = key.toUpper := by
  have hletters := isMethodLetter_of_mem key.toLower (of_decide_eq_true h)
  have hcapitals : List.Forall₂ CodePoint.IsCaseOf (key.toLower.map CodePoint.capital)
      key.toLower := by
    rw [List.forall₂_map_left_iff, List.forall₂_same]
    intro d hd
    have hletter := hletters d hd
    refine ⟨hletter, .inr ?_⟩
    have hlow := hletter.1
    show d.val = d.val - 32 + 32
    omega
  rw [Text.toUpper_eq_of_forall₂ (Text.forall₂_of_toLowerAfter hletters rfl)]
  exact Text.toUpper_eq_of_forall₂ hcapitals

end Spec

end ApiTools
