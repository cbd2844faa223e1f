import Mathlib.Tactic.DefEqTransformations
import ApiTools.Number.Shortest
import ApiTools.Proofs.Rounding

/-!
# The shortest decimal reads back

A decimal denotes the same number with zeros moved between its digits and its exponent
(`ofDecimal_mul_pow`). So the decimal of a number is read as the number (`ofDecimal_shortest`),
whichever of the grids it was found on.
-/

namespace ApiTools

namespace Double

/-- A number with a given sign. -/
def withSign (negative : Bool) : Double → Double
  | .nan => .nan
  | .infinite _ => .infinite negative
  | .finite _ e f => .finite negative e f

section Length

private theorem decimalLength_mul_ten {n : Nat} (hn : n ≠ 0) :
    decimalLength (n * 10) = decimalLength n + 1 := by
  rw [decimalLength, Nat.toDigits_of_base_le (by decide) (by omega), List.length_append,
    Nat.mul_div_cancel n (by decide), List.length_singleton, decimalLength]

private theorem decimalLength_le {n k : Nat} (hk : 0 < k) (h : n < 10 ^ k) : decimalLength n ≤ k :=
  (Nat.length_toDigits_le_iff (by decide) hk).mpr h

private theorem lt_decimalLength {n k : Nat} (hk : 0 < k) (h : 10 ^ k ≤ n) : k < decimalLength
    n := by
  rw [← Nat.not_le, decimalLength, Nat.length_toDigits_le_iff (by decide) hk, Nat.not_lt]
  exact h

end Length

section Powers

open Decimal (powerOfTen)

private theorem powerOfTen_snd_pos (exponent : Int) : 0 < (powerOfTen exponent).2 := by
  unfold powerOfTen
  split
  · exact Nat.one_pos
  · exact Nat.pow_pos (by decide)

/-- The next power of ten is ten times as large. -/
theorem powerOfTen_succ (exponent : Int) :
    10 * (powerOfTen exponent).1 * (powerOfTen (exponent + 1)).2 =
      (powerOfTen (exponent + 1)).1 * (powerOfTen exponent).2 := by
  unfold powerOfTen
  by_cases h : 0 ≤ exponent
  · have hnat : (exponent + 1).toNat = exponent.toNat + 1 := by omega
    have hsucc : 0 ≤ exponent + 1 := by omega
    simp only [h, hsucc, ↓reduceIte, hnat, Nat.pow_eq]
    rw [Nat.pow_succ, Nat.mul_comm 10]
  · have hnat : (-exponent).toNat = (-(exponent + 1)).toNat + 1 := by omega
    by_cases hsucc : 0 ≤ exponent + 1
    · have hone : exponent = -1 := by omega
      subst hone
      rfl
    · simp only [h, hsucc, ↓reduceIte, hnat, Nat.pow_eq]
      rw [Nat.pow_succ, Nat.mul_one, Nat.one_mul, Nat.mul_comm]

/-- A decimal within the range is read as a quotient. -/
theorem ofDecimal_eq (negative : Bool) {digits : Nat} (hdigits : digits ≠ 0) (exponent : Int) :
    ofDecimal negative digits exponent =
      if exponent + decimalLength digits > 400 then .infinite negative
      else if exponent + decimalLength digits < -400 then zero negative
      else ofRatio negative (digits * (powerOfTen exponent).1) (powerOfTen exponent).2 := by
  have hratio : (if 0 ≤ exponent then ofRatio negative (digits * Nat.pow 10 exponent.toNat) 1
      else ofRatio negative digits (Nat.pow 10 (-exponent).toNat)) =
        ofRatio negative (digits * (powerOfTen exponent).1) (powerOfTen exponent).2 := by
    unfold powerOfTen
    split
    · rfl
    · rw [Nat.mul_one]
  rw [ofDecimal, if_neg hdigits, ← hratio]

/-- A zero at the end of the digits is as good as one in the exponent. -/
theorem ofDecimal_mul_ten (negative : Bool) (digits : Nat) (exponent : Int) :
    ofDecimal negative (digits * 10) exponent = ofDecimal negative digits (exponent + 1) := by
  by_cases hdigits : digits = 0
  · rw [ofDecimal, ofDecimal, if_pos hdigits, if_pos (by rw [hdigits])]
  · have hlength : exponent + decimalLength (digits * 10) =
        exponent + 1 + decimalLength digits := by
      rw [decimalLength_mul_ten hdigits]
      omega
    have hratio : ofRatio negative (digits * 10 * (powerOfTen exponent).1) (powerOfTen exponent).2 =
        ofRatio negative (digits * (powerOfTen (exponent + 1)).1)
          (powerOfTen (exponent + 1)).2 := by
      apply ofRatio_congr negative (powerOfTen_snd_pos _) (powerOfTen_snd_pos _)
      rw [Nat.mul_assoc, Nat.mul_assoc, ← Nat.mul_assoc 10, powerOfTen_succ, Nat.mul_assoc]
    rw [ofDecimal_eq negative (by omega), ofDecimal_eq negative hdigits, hlength, hratio]

/-- Zeros behind the digits of a decimal can be put into its exponent. -/
theorem ofDecimal_mul_pow (negative : Bool) (digits : Nat) (exponent : Int) (k : Nat) :
    ofDecimal negative (digits * 10 ^ k) exponent = ofDecimal negative digits (exponent + k) := by
  induction k generalizing exponent with
  | zero => simp
  | succ k ih =>
    rw [Nat.pow_succ, ← Nat.mul_assoc, ofDecimal_mul_ten, ih]
    congr 1
    omega

/-- The sign of a decimal has no influence on its magnitude. -/
theorem ofDecimal_sign (negative : Bool) (digits : Nat) (exponent : Int) :
    ofDecimal negative digits exponent = withSign negative (ofDecimal false digits exponent) := by
  have hratio : ∀ num den,
      ofRatio negative num den = withSign negative (ofRatio false num den) := by
    intro num den
    unfold ofRatio ofPosition
    split <;> rfl
  unfold ofDecimal
  dsimp only
  split
  · rfl
  · split
    · rfl
    · split
      · rfl
      · split
        · exact hratio _ _
        · exact hratio _ _

end Powers

namespace Decimal

variable {e : Fin 2047} {f : Fin fractionCount}

/-- Without the zeros at its end a decimal is read as the same number. -/
theorem ofDecimal_stripped (negative : Bool) (digits : Nat) (exponent : Int) (fuel : Nat) :
    ofDecimal negative (stripped digits exponent fuel).digits
        (stripped digits exponent fuel).exponent =
      ofDecimal negative digits exponent := by
  induction fuel generalizing digits exponent with
  | zero => rfl
  | succ fuel ih =>
    rw [stripped]
    split
    · next h =>
      have htens : digits / 10 * 10 = digits := Nat.div_mul_cancel (Nat.dvd_of_mod_eq_zero h.1)
      rw [ih, ← ofDecimal_mul_ten, htens]
    · rfl

private theorem reads_of_choice {nearer farther d : Decimal}
    (h : (if nearer.reads e f then some nearer
      else if farther.reads e f then some farther else none) = some d) : d.reads e f = true := by
  split at h
  · next hnearer => exact Option.some.inj h ▸ hnearer
  · split at h
    · next hfarther => exact Option.some.inj h ▸ hfarther
    · cases h

/-- The neighbour on a grid reads back. -/
theorem reads_of_onGrid {count : Nat} {d : Decimal} (h : onGrid? e f count = some d) :
    d.reads e f = true := by
  -- Unfolded without its arguments, lest the powers of ten be computed for them.
  obtain ⟨grid, hgrid⟩ : ∃ grid, grid = onGrid? := ⟨_, rfl⟩
  rw [← hgrid] at h
  unfold onGrid? at hgrid
  subst hgrid
  beta_reduce at h
  split at h
  extract_lets exponent at h
  split at h
  extract_lets scaled unit lower low high twice nearer farther at h
  exact reads_of_choice h

private theorem ofDecimal_onGrid {count : Nat} {d : Decimal} (h : onGrid? e f count = some d) :
    ofDecimal false d.digits d.exponent = .finite false e f := by
  have hreads := reads_of_onGrid h
  rw [reads] at hreads
  exact eq_of_beq hreads

private theorem length_between {units power bound five low high : Nat} (hpos : 0 < units)
    (hunits : units < 2 ^ 53) (hpower : power ≤ bound) (hlow : 0 < low) (hhigh : 0 < high)
    (hfives : 10 ^ low ≤ Nat.pow 5 five)
    (hlimit : 2 ^ 53 * Nat.pow 2 bound * Nat.pow 5 five ≤ 10 ^ high) :
    low < decimalLength (units * Nat.pow 2 power * Nat.pow 5 five) ∧
      decimalLength (units * Nat.pow 2 power * Nat.pow 5 five) ≤ high := by
  have hpow : 0 < Nat.pow 2 power := Nat.two_pow_pos power
  constructor
  · apply lt_decimalLength hlow
    exact Nat.le_trans hfives (Nat.le_mul_of_pos_left _ (Nat.mul_pos hpos hpow))
  · apply decimalLength_le hhigh
    have hbinary : units * Nat.pow 2 power < 2 ^ 53 * Nat.pow 2 bound :=
      Nat.mul_lt_mul_of_lt_of_le hunits (Nat.pow_le_pow_right (by decide) hpower)
        (Nat.two_pow_pos bound)
    exact Nat.lt_of_lt_of_le (Nat.mul_lt_mul_of_pos_right hbinary (Nat.pow_pos (by decide)))
      hlimit

private theorem exact_digits (e : Fin 2047) (f : Fin fractionCount) :
    (exact e f).digits = (parts e f).1 * Nat.pow 2 (parts e f).2 * Nat.pow 5 1074 := by
  simp only [exact]

/-- The digits of a number that is not zero, all of them, are neither too few nor too many to be
read exactly. -/
theorem exact_length (h : ¬(e.val = 0 ∧ f.val = 0)) :
    673 < decimalLength (exact e f).digits ∧ decimalLength (exact e f).digits ≤ 1474 := by
  have hf : f.val < 2 ^ 52 := f.isLt
  have hcount : fractionCount = 2 ^ 52 := rfl
  have he := e.isLt
  have hpos : 0 < (parts e f).1 := by
    unfold parts
    split <;> dsimp only <;> omega
  have hunits : (parts e f).1 < 2 ^ 53 := by
    unfold parts
    split <;> dsimp only <;> omega
  have hpower : (parts e f).2 ≤ 2045 := by
    unfold parts
    split <;> dsimp only <;> omega
  rw [exact_digits]
  apply length_between hpos hunits hpower (by decide) (by decide)
  · decide +kernel
  · decide +kernel

/-- All the digits of a number that is not zero read back. -/
theorem ofDecimal_exact (h : ¬(e.val = 0 ∧ f.val = 0)) :
    ofDecimal false (exact e f).digits (exact e f).exponent = .finite false e f := by
  have hlength := exact_length h
  have hdigits : (exact e f).digits ≠ 0 := by
    intro hzero
    rw [hzero] at hlength
    exact absurd hlength.1 (by decide)
  have hexponent : (exact e f).exponent = -1074 := rfl
  rw [ofDecimal_eq false hdigits, hexponent, if_neg (by omega), if_neg (by omega),
    ← ofRatio_ratio false e f]
  have htwos : 0 < (ratio e f).2 := by
    rw [ratio_snd]
    apply pow_two_pos
  apply ofRatio_congr false (powerOfTen_snd_pos _) htwos
  have hone : (powerOfTen (-1074)).1 = 1 := rfl
  have htens : (powerOfTen (-1074)).2 = Nat.pow 5 1074 * Nat.pow 2 1074 := by decide +kernel
  rw [hone, htens, exact_digits, ratio_fst, ratio_snd, Nat.mul_one, Nat.mul_assoc]

/-- The decimal of a number was found on a grid, or has all the digits. -/
theorem shortest_cases (e : Fin 2047) (f : Fin fractionCount) :
    (∃ count d, onGrid? e f count = some d ∧
      shortest e f = stripped d.digits d.exponent 400) ∨ shortest e f = exact e f := by
  obtain ⟨decimal, hdecimal⟩ : ∃ decimal, decimal = shortest := ⟨_, rfl⟩
  rw [← hdecimal]
  unfold shortest at hdecimal
  subst hdecimal
  beta_reduce
  split
  · next d hfound =>
    obtain ⟨count, _, hgrid⟩ := List.exists_of_findSome?_eq_some hfound
    exact .inl ⟨count, d, hgrid, rfl⟩
  · exact .inr rfl

/-- The shortest decimal of a number that is not zero is read as that number. -/
theorem ofDecimal_shortest (negative : Bool) (h : ¬(e.val = 0 ∧ f.val = 0)) :
    ofDecimal negative (shortest e f).digits (shortest e f).exponent =
      .finite negative e f := by
  have hpositive : ofDecimal false (shortest e f).digits (shortest e f).exponent =
      .finite false e f := by
    rcases shortest_cases e f with ⟨count, d, hgrid, hstripped⟩ | hexact
    · rw [hstripped, ofDecimal_stripped, ofDecimal_onGrid hgrid]
    · rw [hexact, ofDecimal_exact h]
  rw [ofDecimal_sign, hpositive, withSign]

/-- The shortest decimal of a double other than zero has digits other than zero. -/
theorem shortest_ne_zero (h : ¬(e.val = 0 ∧ f.val = 0)) : (shortest e f).digits ≠ 0 := by
  intro hzero
  have hread := ofDecimal_shortest false h
  rw [hzero, ofDecimal, if_pos rfl, zero, Double.finite.injEq] at hread
  exact h ⟨(congrArg Fin.val hread.2.1).symm, (congrArg Fin.val hread.2.2).symm⟩

end Decimal

end Double

end ApiTools
