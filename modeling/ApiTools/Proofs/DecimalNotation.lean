import Mathlib.Algebra.Group.Nat.Defs
import ApiTools.Number.Shortest

/-!
# Decimal notation

A number is read back from its decimal notation (`digitsValue_ofNat`). Digits put behind others
count for less by their number, so zeros count for nothing in front and for a power of ten behind.
No notation of a number has fewer digits than that (`length_ofNat_digitsValue_le`).
-/

namespace ApiTools

namespace Text

/-- A text of digits. -/
def IsDigits (t : Text) : Prop := ∀ c ∈ t, c.isAsciiDigit = true

instance (t : Text) : Decidable t.IsDigits := inferInstanceAs (Decidable (∀ c ∈ t, _))

/-- Two texts of digits are one together. -/
theorem IsDigits.append {t u : Text} (ht : t.IsDigits) (hu : u.IsDigits) : (t ++ u).IsDigits := by
  intro c hc
  rcases List.mem_append.mp hc with hc | hc
  · exact ht c hc
  · exact hu c hc

/-- The start of a text of digits is one. -/
theorem IsDigits.take {t : Text} (ht : t.IsDigits) (n : Nat) : IsDigits (t.take n) :=
  fun c hc ↦ ht c (List.mem_of_mem_take hc)

/-- The rest of a text of digits is one. -/
theorem IsDigits.drop {t : Text} (ht : t.IsDigits) (n : Nat) : IsDigits (t.drop n) :=
  fun c hc ↦ ht c (List.mem_of_mem_drop hc)

/-- Zeros are digits. -/
theorem isDigits_zeros (n : Nat) : (Double.zeros n).IsDigits := by
  intro c hc
  rw [List.eq_of_mem_replicate hc]
  rfl

section Value

private theorem foldl_digits (t : Text) (start : Nat) :
    t.foldl (fun n c ↦ 10 * n + c.digitValue) start = start * 10 ^ t.length + digitsValue t := by
  induction t generalizing start with
  | nil => simp [digitsValue]
  | cons c t ih =>
    have hcons : digitsValue (c :: t) = c.digitValue * 10 ^ t.length + digitsValue t := by
      rw [digitsValue, List.foldl_cons, ih, Nat.mul_zero, Nat.zero_add]
    rw [List.foldl_cons, ih, hcons, List.length_cons, Nat.pow_succ, Nat.add_mul, Nat.add_assoc,
      Nat.mul_comm 10 start, Nat.mul_assoc, Nat.mul_comm 10]

/-- Digits count for as many powers of ten as there are digits behind them. -/
theorem digitsValue_append (t u : Text) :
    digitsValue (t ++ u) = digitsValue t * 10 ^ u.length + digitsValue u := by
  rw [digitsValue, List.foldl_append]
  exact foldl_digits u _

private theorem digitsValue_cons (c : CodePoint) (t : Text) :
    digitsValue (c :: t) = c.digitValue * 10 ^ t.length + digitsValue t := by
  rw [digitsValue, List.foldl_cons, Nat.mul_zero, Nat.zero_add]
  exact foldl_digits t _

private theorem digitsValue_zeros (n : Nat) : digitsValue (Double.zeros n) = 0 := by
  induction n with
  | zero => rfl
  | succ n ih =>
    have hcons : Double.zeros (n + 1) = [CodePoint.ofChar '0'] ++ Double.zeros n := rfl
    have hzero : digitsValue [CodePoint.ofChar '0'] = 0 := rfl
    rw [hcons, digitsValue_append, ih, hzero, Nat.zero_mul]

/-- Zeros in front count for nothing. -/
theorem digitsValue_zeros_append (n : Nat) (t : Text) :
    digitsValue (Double.zeros n ++ t) = digitsValue t := by
  rw [digitsValue_append, digitsValue_zeros, Nat.zero_mul, Nat.zero_add]

/-- Zeros behind count for a power of ten. -/
theorem digitsValue_append_zeros (t : Text) (n : Nat) :
    digitsValue (t ++ Double.zeros n) = digitsValue t * 10 ^ n := by
  rw [digitsValue_append, digitsValue_zeros, Nat.add_zero, Double.zeros, List.length_replicate]

end Value

section Notation

/-- Numbers are written in digits. -/
theorem isDigits_ofNat (n : Nat) : (ofNat n).IsDigits := by
  intro c hc
  obtain ⟨d, hd, rfl⟩ := List.mem_map.mp hc
  have hdigit := Nat.isDigit_of_mem_toDigits (by decide) (by decide) hd
  obtain ⟨hlower, hupper⟩ := Char.isDigit_iff_toNat.mp hdigit
  rw [CodePoint.isAsciiDigit, Bool.and_eq_true]
  exact ⟨decide_eq_true hlower, decide_eq_true hupper⟩

/-- A number is read back from its notation. -/
theorem digitsValue_ofNat (n : Nat) : digitsValue (ofNat n) = n := by
  rw [digitsValue, ofNat, List.foldl_map]
  exact Nat.ofDigitChars_ten_toDigits

/-- The notation of a number other than zero starts with another digit than zero. -/
theorem ofNat_eq_cons {n : Nat} (hn : n ≠ 0) :
    ∃ c t, ofNat n = c :: t ∧ c ≠ CodePoint.ofChar '0' := by
  induction n using Nat.strongRecOn with
  | ind n ih =>
    by_cases hsmall : n < 10
    · refine ⟨CodePoint.ofChar n.digitChar, [], ?_, ?_⟩
      · rw [ofNat, Nat.toDigits_of_lt_base hsmall]
        rfl
      · have hdigits : ∀ k < 10, k ≠ 0 →
            CodePoint.ofChar k.digitChar ≠ CodePoint.ofChar '0' := by decide
        exact hdigits n hsmall hn
    · obtain ⟨c, t, htens, hc⟩ := ih (n / 10) (by omega) (by omega)
      refine ⟨c, t ++ [CodePoint.ofChar (n % 10).digitChar], ?_, hc⟩
      rw [ofNat, Nat.toDigits_of_base_le (by decide) (by omega), List.map_append]
      rw [ofNat] at htens
      rw [htens]
      rfl

/-- A number has at most so many digits if it is less than that power of ten. -/
theorem length_ofNat_le_iff {n k : Nat} (hk : 0 < k) : (ofNat n).length ≤ k ↔ n < 10 ^ k := by
  rw [ofNat, List.length_map]
  exact Nat.length_toDigits_le_iff (by decide) hk

private theorem digitsValue_lt {t : Text} (h : t.IsDigits) : digitsValue t < 10 ^ t.length := by
  induction t with
  | nil => exact Nat.one_pos
  | cons c t ih =>
    obtain ⟨hc, ht⟩ := List.forall_mem_cons.mp h
    have hdigit : c.digitValue ≤ 9 := by
      simp only [CodePoint.isAsciiDigit, Bool.and_eq_true, decide_eq_true_eq] at hc
      rw [CodePoint.digitValue]
      omega
    have hvalue := Nat.mul_le_mul_right (10 ^ t.length) hdigit
    have hrest := ih ht
    rw [digitsValue_cons, List.length_cons, Nat.pow_succ]
    omega

/-- The notation of a number has no more digits than any that stand for it. -/
theorem length_ofNat_digitsValue_le {t : Text} (h : t.IsDigits) (hne : t ≠ []) :
    (ofNat (digitsValue t)).length ≤ t.length :=
  (length_ofNat_le_iff (List.length_pos_iff.mpr hne)).mpr (digitsValue_lt h)

/-- The whole numbers that can be written are those below a power of ten. -/
theorem isShort_iff {i : Int} : isShort i = true ↔ i.natAbs < 10 ^ digitLimit := by
  rw [isShort, isWithin, Option.all_some, decide_eq_true_iff]
  exact length_ofNat_le_iff (by decide)

end Notation

end Text

end ApiTools
