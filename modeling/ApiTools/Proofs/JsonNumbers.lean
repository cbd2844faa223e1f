import Mathlib.Data.List.TakeDrop
import ApiTools.Json.Reader
import ApiTools.Proofs.DecimalNotation
import ApiTools.Proofs.ShortestDecimal

/-!
# Numbers in JSON

The reader takes the text of a number, whole or not and in any layout, back to the number and stops
behind it, if what follows cannot continue a number.
-/

namespace ApiTools

namespace Json

open Double (ofDecimal positional scientific exponentText zeros signText Layout)
open Text (IsDigits digitsValue)

/-- What follows a number cannot continue it. -/
def EndsNumber (rest : Text) : Prop :=
  ∀ c ∈ rest.head?, c.isAsciiDigit = false ∧ c ≠ '.' ∧ c ≠ 'e' ∧ c ≠ 'E'

/-- The digits before the point of a number: a single zero, or digits that start with another
one. -/
def IsWhole (t : Text) : Prop := t.IsDigits ∧ (t = "0" ∨ ∃ c u, t = c :: u ∧ c ≠ '0')

/-- The digits behind the point with their point, which is left out with them. -/
def pointed (part : Text) : Text := if part = [] then [] else "." ++ part

section Parts

/-- All of some digits are read, if none follows. -/
theorem digits_append {ds rest : Text} (hds : ds.IsDigits)
    (hrest : ∀ c ∈ rest.head?, c.isAsciiDigit = false) : digits (ds ++ rest) = (ds, rest) := by
  have hstop : rest.takeWhile CodePoint.isAsciiDigit = [] ∧
      rest.dropWhile CodePoint.isAsciiDigit = rest := by
    cases rest with
    | nil => exact ⟨rfl, rfl⟩
    | cons c t =>
      have hc := hrest c rfl
      simp [hc]
  rw [digits, List.span_eq_takeWhile_dropWhile, List.takeWhile_append_of_pos hds,
    List.dropWhile_append_of_pos hds, hstop.1, hstop.2, List.append_nil]

private theorem wholePart?_append {whole rest : Text} (h : IsWhole whole)
    (hrest : ∀ c ∈ rest.head?, c.isAsciiDigit = false) :
    wholePart? (whole ++ rest) = some (whole, rest) := by
  obtain ⟨hdigits, rfl | ⟨c, t, rfl, hc⟩⟩ := h
  · rfl
  · have hdigit : c.isAsciiDigit = true := hdigits c List.mem_cons_self
    have hread := digits_append hdigits hrest
    rw [List.cons_append] at hread ⊢
    rw [wholePart?, if_neg hc, if_pos hdigit, hread]

private theorem fraction_pointed {part rest : Text} (hpart : part.IsDigits)
    (hrest : ∀ c ∈ rest.head?, c.isAsciiDigit = false ∧ c ≠ '.') :
    fraction (pointed part ++ rest) = (part, rest) := by
  by_cases hnil : part = []
  · subst hnil
    cases rest with
    | nil => rfl
    | cons c t =>
      have hc : c ≠ '.' := (hrest c rfl).2
      simp [pointed, fraction, hc]
  · have hread := digits_append hpart fun c hc ↦ (hrest c hc).1
    have hpoint : pointed part ++ rest = CodePoint.ofChar '.' :: (part ++ rest) := by
      rw [pointed, if_neg hnil]
      rfl
    rw [hpoint, fraction, hread, if_pos ⟨rfl, hnil⟩]

/-- An exponent with its sign is read back. -/
theorem exponent?_exponentText (x : Int) {rest : Text}
    (hrest : ∀ c ∈ rest.head?, c.isAsciiDigit = false) :
    exponent? ("e" ++ exponentText x ++ rest) = some (x, rest) := by
  generalize hds : zeros (2 - (Text.ofNat x.natAbs).length) ++ Text.ofNat x.natAbs = ds
  have hdigits : ds.IsDigits := hds ▸ (Text.isDigits_zeros _).append (Text.isDigits_ofNat _)
  have hvalue : digitsValue ds = x.natAbs := by
    rw [← hds, Text.digitsValue_zeros_append, Text.digitsValue_ofNat]
  have hnonempty : ds ≠ [] := by
    intro hnil
    have hlength := congrArg List.length (hds.trans hnil)
    rw [List.length_append, zeros, List.length_replicate, List.length_nil] at hlength
    omega
  have hread := digits_append hdigits hrest
  by_cases hneg : x < 0
  · have htext : "e" ++ exponentText x ++ rest =
        CodePoint.ofChar 'e' :: CodePoint.ofChar '-' :: (ds ++ rest) := by
      rw [exponentText, if_pos hneg, ← hds]
      simp only [List.append_assoc]
      rfl
    rw [htext, exponent?, if_pos (.inl rfl)]
    simp only [↓reduceIte, hread, hnonempty, hvalue, Option.some.injEq, Prod.mk.injEq, and_true]
    omega
  · have htext : "e" ++ exponentText x ++ rest =
        CodePoint.ofChar 'e' :: CodePoint.ofChar '+' :: (ds ++ rest) := by
      rw [exponentText, if_neg hneg, ← hds]
      simp only [List.append_assoc]
      rfl
    have hsign : CodePoint.ofChar '+' ≠ CodePoint.ofChar '-' := by decide
    rw [htext, exponent?, if_pos (.inl rfl)]
    simp only [hsign, ↓reduceIte, hread, hnonempty, hvalue, Option.some.injEq, Prod.mk.injEq,
      and_true, Bool.false_eq_true]
    omega

private theorem exponent?_eq_none {rest : Text} (h : EndsNumber rest) : exponent? rest = none := by
  cases rest with
  | nil => rfl
  | cons c t =>
    obtain ⟨-, -, he, hE⟩ := h c rfl
    have hletter : ¬(c = 'e' ∨ c = 'E') := not_or.mpr ⟨he, hE⟩
    simp only [exponent?, hletter, ↓reduceIte]

end Parts

section Unsigned

variable {limit : Option Nat} {whole part rest : Text}

private theorem pointed_head (part : Text) {rest : Text}
    (hrest : ∀ c ∈ rest.head?, c.isAsciiDigit = false) :
    ∀ c ∈ (pointed part ++ rest).head?, c.isAsciiDigit = false := by
  by_cases hnil : part = []
  · rwa [pointed, if_pos hnil]
  · rw [pointed, if_neg hnil]
    rintro c ⟨⟩
    rfl

/-- A whole number of digits within the limit is read up to what follows it. -/
theorem unsigned?_whole (negative : Bool) (hwhole : IsWhole whole)
    (hwithin : Text.isWithin limit whole = true) (hrest : EndsNumber rest) :
    unsigned? limit negative (whole ++ rest) =
      some (.int (if negative then -(digitsValue whole : Int) else digitsValue whole), rest) := by
  have hpart := wholePart?_append hwhole fun c hc ↦ (hrest c hc).1
  have hfraction := @fraction_pointed [] rest nofun fun c hc ↦
    ⟨(hrest c hc).1, (hrest c hc).2.1⟩
  rw [pointed, if_pos rfl, List.nil_append] at hfraction
  simp only [unsigned?, hpart, hfraction, exponent?_eq_none hrest, bind, Option.bind, hwithin,
    ↓reduceIte]

/-- A decimal is read up to what follows it. -/
theorem unsigned?_decimal (negative : Bool) (hwhole : IsWhole whole) (hpart : part.IsDigits)
    (hnonempty : part ≠ []) (hrest : EndsNumber rest) :
    unsigned? limit negative (whole ++ pointed part ++ rest) =
      some (.float (ofDecimal negative (digitsValue (whole ++ part)) (-(part.length : Int))),
        rest) := by
  have hfraction := fraction_pointed hpart fun c hc ↦ ⟨(hrest c hc).1, (hrest c hc).2.1⟩
  have hread := wholePart?_append hwhole (pointed_head part fun c hc ↦ (hrest c hc).1)
  rw [List.append_assoc]
  simp only [unsigned?, hread, hfraction, exponent?_eq_none hrest, bind, Option.bind, hnonempty,
    ↓reduceIte, pure]

/-- A decimal with an exponent is read up to what follows it. -/
theorem unsigned?_scientific (negative : Bool) (hwhole : IsWhole whole) (hpart : part.IsDigits)
    (power : Int) (hrest : ∀ c ∈ rest.head?, c.isAsciiDigit = false) :
    unsigned? limit negative (whole ++ pointed part ++ ("e" ++ exponentText power ++ rest)) =
      some (.float (ofDecimal negative (digitsValue (whole ++ part)) (power - part.length)),
        rest) := by
  have hhead : ∀ c ∈ ("e" ++ exponentText power ++ rest : Text).head?,
      c.isAsciiDigit = false ∧ c ≠ '.' := by
    rintro c ⟨⟩
    decide
  have hfraction := fraction_pointed hpart hhead
  have hread := wholePart?_append hwhole (pointed_head part fun c hc ↦ (hhead c hc).1)
  rw [List.append_assoc]
  simp only [unsigned?, hread, hfraction, exponent?_exponentText power hrest, bind, Option.bind,
    pure]

end Unsigned

section Layout

variable {ds : Text}

/-- Positional notation is a whole part, a point and further digits, which together are a decimal
for the digits that are written. -/
theorem positional_parts (hds : ds.IsDigits) (hlead : ∃ c t, ds = c :: t ∧ c ≠ '0') (place : Int) :
    ∃ whole part, positional ds place = whole ++ pointed part ∧ IsWhole whole ∧ part.IsDigits ∧
      part ≠ [] ∧ ∀ negative,
        ofDecimal negative (digitsValue (whole ++ part)) (-(part.length : Int)) =
          ofDecimal negative (digitsValue ds) (place - ds.length) := by
  have hnonempty : ds ≠ [] := by
    obtain ⟨c, t, rfl, _⟩ := hlead
    exact List.cons_ne_nil c t
  by_cases hsmall : place ≤ 0
  · refine ⟨"0", zeros (-place).toNat ++ ds, ?_, ?_, ?_, ?_, ?_⟩
    · rw [positional, if_pos hsmall, pointed, if_neg (by simp [hnonempty]), List.append_assoc]
      rfl
    · exact ⟨by decide, .inl rfl⟩
    · exact (Text.isDigits_zeros _).append hds
    · simp [hnonempty]
    · intro negative
      have hzero : ("0" : Text) = zeros 1 := rfl
      rw [hzero, Text.digitsValue_zeros_append, Text.digitsValue_zeros_append, List.length_append,
        zeros, List.length_replicate]
      congr 1
      omega
  · by_cases hlong : ds.length ≤ place.toNat
    · refine ⟨ds ++ zeros (place.toNat - ds.length), "0", ?_, ?_, ?_, ?_, ?_⟩
      · rw [positional, if_neg hsmall, if_pos hlong]
        rfl
      · refine ⟨hds.append (Text.isDigits_zeros _), .inr ?_⟩
        obtain ⟨c, t, rfl, hc⟩ := hlead
        exact ⟨c, _, List.cons_append, hc⟩
      · decide
      · decide
      · intro negative
        have hzero : ("0" : Text) = zeros 1 := rfl
        rw [hzero, Text.digitsValue_append_zeros, Text.digitsValue_append_zeros,
          Double.ofDecimal_mul_pow, Double.ofDecimal_mul_pow]
        congr 1
        rw [zeros, List.length_replicate]
        omega
    · refine ⟨ds.take place.toNat, ds.drop place.toNat, ?_, ?_, hds.drop _, ?_, ?_⟩
      · have hdrop : ds.drop place.toNat ≠ [] := mt List.drop_eq_nil_iff.mp hlong
        rw [positional, if_neg hsmall, if_neg hlong, pointed, if_neg hdrop, List.append_assoc]
      · refine ⟨hds.take _, .inr ?_⟩
        obtain ⟨c, t, rfl, hc⟩ := hlead
        obtain ⟨n, hn⟩ : ∃ n, place.toNat = n + 1 := ⟨place.toNat - 1, by omega⟩
        exact ⟨c, t.take n, by rw [hn, List.take_succ_cons], hc⟩
      · simp
        omega
      · intro negative
        rw [List.take_append_drop, List.length_drop]
        congr 1
        omega

/-- Scientific notation is one digit, a point with the others, and the exponent. -/
theorem scientific_parts (hds : ds.IsDigits) (hlead : ∃ c t, ds = c :: t ∧ c ≠ '0')
    (exponent : Int) :
    ∃ whole part, scientific ds exponent = whole ++ pointed part ++ ("e" ++ exponentText exponent) ∧
      IsWhole whole ∧ part.IsDigits ∧ whole ++ part = ds ∧ part.length = ds.length - 1 := by
  refine ⟨ds.take 1, ds.drop 1, ?_, ?_, hds.drop 1, List.take_append_drop 1 ds, List.length_drop⟩
  · have hpoint :
        (if ds.length ≤ 1 then [] else "." : Text) ++ ds.drop 1 = pointed (ds.drop 1) := by
      by_cases hshort : ds.length ≤ 1
      · rw [if_pos hshort, pointed, List.drop_of_length_le hshort]
        rfl
      · have hdrop : ds.drop 1 ≠ [] := mt List.drop_eq_nil_iff.mp hshort
        rw [if_neg hshort, pointed, if_neg hdrop]
    rw [scientific, ← hpoint]
    simp only [List.append_assoc]
  · obtain ⟨c, t, rfl, hc⟩ := hlead
    exact ⟨hds.take 1, .inr ⟨c, [], rfl, hc⟩⟩

end Layout

section Render

variable {limit : Option Nat}

/-- A text starts with a digit. -/
def StartsWithDigit (t : Text) : Prop := ∃ c u, t = c :: u ∧ c.isAsciiDigit = true

private theorem IsWhole.startsWithDigit {whole : Text} (h : IsWhole whole) (rest : Text) :
    StartsWithDigit (whole ++ rest) := by
  obtain ⟨hdigits, rfl | ⟨c, t, rfl, _⟩⟩ := h
  · exact ⟨_, _, rfl, rfl⟩
  · exact ⟨c, t ++ rest, rfl, hdigits c List.mem_cons_self⟩

/-- The text of a whole number behind its sign is read as the number, if it is within the limit. -/
theorem exists_ofInt (i : Int) : ∃ t, Text.ofInt i = signText (i < 0) ++ t ∧ StartsWithDigit t ∧
    (Text.isWithin limit (Text.ofNat i.natAbs) = true → ∀ rest, EndsNumber rest →
      unsigned? limit (i < 0) (t ++ rest) = some (.int i, rest)) := by
  have hwhole : IsWhole (Text.ofNat i.natAbs) := by
    refine ⟨Text.isDigits_ofNat _, ?_⟩
    by_cases hzero : i.natAbs = 0
    · rw [hzero]
      exact .inl rfl
    · exact .inr (Text.ofNat_eq_cons hzero)
  refine ⟨Text.ofNat i.natAbs, ?_, ?_, ?_⟩
  · by_cases hneg : i < 0
    · simp only [Text.ofInt, hneg, ↓reduceIte, signText, decide_true]
      rfl
    · simp [Text.ofInt, hneg, signText]
  · simpa using hwhole.startsWithDigit []
  · intro hwithin rest hrest
    rw [unsigned?_whole _ hwhole hwithin hrest, Text.digitsValue_ofNat]
    by_cases hneg : i < 0
    · simp only [hneg, decide_true, ↓reduceIte, Option.some.injEq, Prod.mk.injEq, and_true,
        Value.int.injEq]
      omega
    · simp only [hneg, decide_false, Bool.false_eq_true, ↓reduceIte, Option.some.injEq,
        Prod.mk.injEq, and_true, Value.int.injEq]
      omega

private theorem exists_positional {ds : Text} (hds : ds.IsDigits)
    (hlead : ∃ c t, ds = c :: t ∧ c ≠ '0') (place : Int) (negative : Bool) :
    StartsWithDigit (positional ds place) ∧ ∀ rest, EndsNumber rest →
      unsigned? limit negative (positional ds place ++ rest) =
        some (.float (ofDecimal negative (digitsValue ds) (place - ds.length)), rest) := by
  obtain ⟨whole, part, htext, hwhole, hpart, hnonempty, hvalue⟩ := positional_parts hds hlead place
  rw [htext]
  refine ⟨hwhole.startsWithDigit _, fun rest hrest ↦ ?_⟩
  rw [unsigned?_decimal negative hwhole hpart hnonempty hrest, hvalue]

private theorem exists_scientific {ds : Text} (hds : ds.IsDigits)
    (hlead : ∃ c t, ds = c :: t ∧ c ≠ '0') (exponent : Int) (negative : Bool) :
    StartsWithDigit (scientific ds exponent) ∧ ∀ rest, EndsNumber rest →
      unsigned? limit negative (scientific ds exponent ++ rest) =
        some (.float (ofDecimal negative (digitsValue ds) (exponent - (ds.length - 1 : Nat))),
          rest) := by
  obtain ⟨whole, part, htext, hwhole, hpart, hdigits, hlength⟩ :=
    scientific_parts hds hlead exponent
  rw [htext]
  constructor
  · rw [List.append_assoc]
    exact hwhole.startsWithDigit _
  · intro rest hrest
    rw [List.append_assoc _ _ rest, unsigned?_scientific negative hwhole hpart exponent
      (fun c hc ↦ (hrest c hc).1), hdigits, hlength]

/-- The text of a finite double behind its sign is read as the double, whatever its layout. -/
theorem exists_render (layout : Layout) (negative : Bool) (e : Fin 2047)
    (f : Fin Double.fractionCount) :
    ∃ t, Double.render layout (.finite negative e f) = signText negative ++ t ∧ StartsWithDigit t ∧
      ∀ rest, EndsNumber rest →
        unsigned? limit negative (t ++ rest) = some (.float (.finite negative e f), rest) := by
  refine ⟨_, rfl, ?_⟩
  by_cases hzero : e.val = 0 ∧ f.val = 0
  · rw [if_pos hzero]
    have he : e = 0 := Fin.ext hzero.1
    have hf : f = 0 := Fin.ext hzero.2
    subst he hf
    refine ⟨⟨_, _, rfl, rfl⟩, fun rest hrest ↦ ?_⟩
    exact @unsigned?_decimal limit "0" "0" rest negative ⟨by decide, .inl rfl⟩ (by decide)
      (by decide) hrest
  · rw [if_neg hzero]
    have hdigits := Double.Decimal.shortest_ne_zero hzero
    have hread := Double.Decimal.ofDecimal_shortest negative hzero
    generalize Double.Decimal.shortest e f = d at hdigits hread ⊢
    have hds := Text.isDigits_ofNat d.digits
    have hlead := Text.ofNat_eq_cons hdigits
    have hlength : (Text.ofNat d.digits).length ≠ 0 := by
      obtain ⟨c, t, hcons, _⟩ := hlead
      rw [hcons, List.length_cons]
      omega
    split
    · obtain ⟨hstart, hunsigned⟩ := exists_positional hds hlead
        (d.exponent + (Text.ofNat d.digits).length - 1 + 1) negative
      refine ⟨hstart, fun rest hrest ↦ ?_⟩
      have hexponent : d.exponent + (Text.ofNat d.digits).length - 1 + 1 -
          (Text.ofNat d.digits).length = d.exponent := by omega
      rw [hunsigned rest hrest, hexponent, Text.digitsValue_ofNat, hread]
    · obtain ⟨hstart, hunsigned⟩ := exists_scientific hds hlead
        (d.exponent + (Text.ofNat d.digits).length - 1) negative
      refine ⟨hstart, fun rest hrest ↦ ?_⟩
      have hexponent : d.exponent + (Text.ofNat d.digits).length - 1 -
          ((Text.ofNat d.digits).length - 1 : Nat) = d.exponent := by omega
      rw [hunsigned rest hrest, hexponent, Text.digitsValue_ofNat, hread]

end Render

end Json

end ApiTools
