import Mathlib.Algebra.Group.Nat.Defs
import ApiTools.Number.Double

/-!
# Rounding

The double nearest to a quotient depends on the quotient alone, not on the numerator and the
denominator that it is given by. A quotient that is a double needs no rounding: it is found as it
is (`ofRatio_ratio`).
-/

namespace ApiTools

namespace Double

/-- A quotient is rounded in the same way after it was expanded. -/
theorem roundHalfEven_mul_right (num den : Nat) {k : Nat} (hk : 0 < k) :
    roundHalfEven (num * k) (den * k) = roundHalfEven num den := by
  have hquotient : num * k / (den * k) = num / den := Nat.mul_div_mul_right num den hk
  have hrest : 2 * (num * k % (den * k)) = 2 * (num % den) * k := by
    rw [Nat.mul_mod_mul_right, Nat.mul_assoc]
  simp only [roundHalfEven, hquotient, hrest, Nat.mul_lt_mul_right hk]

/-- A whole number needs no rounding. -/
theorem roundHalfEven_mul_self (n : Nat) {den : Nat} (hden : 0 < den) :
    roundHalfEven (n * den) den = n := by
  simp [roundHalfEven, Nat.mul_div_cancel n hden, hden]

/-- The nearest number to a quotient is the same after it was expanded. -/
theorem nearestPosition_mul_right (num den : Nat) {k : Nat} (hk : 0 < k) :
    nearestPosition (num * k) (den * k) = nearestPosition num den := by
  simp only [nearestPosition]
  generalize Nat.pow 2 1074 = unit
  generalize hscaled : (num * k * unit / (den * k)).log2 + 1 - 53 = power
  have hquotient : num * k * unit / (den * k) = num * unit / den := by
    rw [Nat.mul_right_comm, Nat.mul_div_mul_right _ _ hk]
  rw [← hscaled, hquotient, Nat.mul_right_comm num k, Nat.mul_right_comm den k,
    roundHalfEven_mul_right _ _ hk]

/-- Equal quotients have the same nearest number. -/
theorem nearestPosition_congr {a b c d : Nat} (hb : 0 < b) (hd : 0 < d) (h : a * d = c * b) :
    nearestPosition a b = nearestPosition c d := by
  rw [← nearestPosition_mul_right a b hd, ← nearestPosition_mul_right c d hb, h, Nat.mul_comm d b]

/-- Equal ratios are rounded alike. -/
theorem ofRatio_congr {a b c d : Nat} (negative : Bool) (hb : 0 < b) (hd : 0 < d)
    (h : a * d = c * b) : ofRatio negative a b = ofRatio negative c d := by
  rw [ofRatio, ofRatio, nearestPosition_congr hb hd h]

/-- The units of a number fill 53 binary digits, unless they are the smallest ones. -/
theorem log2_parts (e : Fin 2047) (f : Fin fractionCount) :
    ((parts e f).1 * 2 ^ (parts e f).2).log2 + 1 - 53 = (parts e f).2 := by
  have hf : f.val < 2 ^ 52 := f.isLt
  by_cases he : e.val = 0
  · simp only [parts, if_pos he, Nat.pow_zero, Nat.mul_one]
    have hlog : f.val.log2 < 53 := by
      by_cases hzero : f.val = 0
      · rw [hzero]
        decide
      · exact (Nat.log2_lt hzero).mpr (by omega)
    omega
  · simp only [parts, if_neg he]
    generalize hunits : fractionCount + f.val = units
    have hcount : fractionCount = 2 ^ 52 := rfl
    have hlower : 2 ^ 52 * 2 ^ (e.val - 1) ≤ units * 2 ^ (e.val - 1) :=
      Nat.mul_le_mul_right _ (by omega)
    have hupper : units * 2 ^ (e.val - 1) < 2 ^ 53 * 2 ^ (e.val - 1) :=
      Nat.mul_lt_mul_of_pos_right (by omega) (Nat.two_pow_pos _)
    rw [← Nat.pow_add] at hlower hupper
    have hlog : (units * 2 ^ (e.val - 1)).log2 = 52 + (e.val - 1) := by
      rw [Nat.log2_eq_iff (Nat.mul_ne_zero (by omega) (Nat.ne_of_gt (Nat.two_pow_pos _)))]
      exact ⟨hlower, by rwa [Nat.add_right_comm]⟩
    omega

/-- The numerator of a double is its significand times a power of two. -/
theorem ratio_fst (e : Fin 2047) (f : Fin fractionCount) :
    (ratio e f).1 = (parts e f).1 * Nat.pow 2 (parts e f).2 := by
  simp only [ratio]

/-- All doubles have one denominator. -/
theorem ratio_snd (e : Fin 2047) (f : Fin fractionCount) : (ratio e f).2 = Nat.pow 2 1074 := by
  simp only [ratio]

/-- Powers of two are positive. -/
theorem pow_two_pos (n : Nat) : 0 < Nat.pow 2 n := Nat.two_pow_pos n

/-- A number is the nearest one to itself. -/
theorem nearestPosition_ratio (e : Fin 2047) (f : Fin fractionCount) :
    nearestPosition (ratio e f).1 (ratio e f).2 = e.val * fractionCount + f.val := by
  have hpos : 0 < Nat.pow 2 1074 := by apply pow_two_pos
  simp only [nearestPosition, ratio]
  generalize Nat.pow 2 1074 = unit at hpos ⊢
  have hlog := log2_parts e f
  rw [← Nat.pow_eq] at hlog
  rw [Nat.mul_div_cancel _ hpos, hlog, Nat.mul_assoc, Nat.mul_comm (Nat.pow 2 _) unit,
    roundHalfEven_mul_self _ (Nat.mul_pos hpos (pow_two_pos _))]
  by_cases he : e.val = 0
  · simp [parts, he]
  · obtain ⟨k, hk⟩ : ∃ k, e.val = k + 1 := ⟨e.val - 1, by omega⟩
    simp only [parts, if_neg he]
    rw [hk, Nat.add_sub_cancel, Nat.succ_mul, Nat.add_assoc]

/-- The position of a finite number leads back to it. -/
theorem ofPosition_position (negative : Bool) (e : Fin 2047) (f : Fin fractionCount) :
    ofPosition negative (e.val * fractionCount + f.val) = .finite negative e f := by
  have hcount : 0 < fractionCount := by decide
  have hdiv : (e.val * fractionCount + f.val) / fractionCount = e.val := by
    rw [Nat.mul_comm, Nat.mul_add_div hcount, Nat.div_eq_of_lt f.isLt, Nat.add_zero]
  have hmod : (e.val * fractionCount + f.val) % fractionCount = f.val := by
    rw [Nat.mul_comm, Nat.mul_add_mod, Nat.mod_eq_of_lt f.isLt]
  simp only [ofPosition, hdiv, hmod, e.isLt, ↓reduceDIte]

/-- A finite number is read from the quotient that it is. -/
theorem ofRatio_ratio (negative : Bool) (e : Fin 2047) (f : Fin fractionCount) :
    ofRatio negative (ratio e f).1 (ratio e f).2 = .finite negative e f := by
  rw [ofRatio, nearestPosition_ratio, ofPosition_position]

end Double

end ApiTools
