import Mathlib.Data.List.Chain
import ApiTools.Json.Reader
import ApiTools.Json.Writer

/-!
# Strings in JSON

A string that was written is read back (`stringBody?_escaped`). Where all code points beyond ASCII
are written by number, the text must not hold the two halves of a surrogate pair side by side, since
the reader joins them.
-/

namespace ApiTools

/-- No half of a surrogate pair stands before the other half. -/
def Text.IsJoined (t : Text) : Prop :=
  t.IsChain fun c d ↦ ¬(c.isHighSurrogate = true ∧ d.isLowSurrogate = true)

/-- A text without surrogates has no halves of a pair to be joined. -/
theorem Text.IsClean.isJoined {t : Text} (h : t.IsClean) : t.IsJoined := by
  refine (List.pairwise_of_forall_mem_list fun c hc d _ ↦ ?_).isChain
  have hclean := h c hc
  simp only [CodePoint.isSurrogate, CodePoint.isHighSurrogate, CodePoint.isLowSurrogate,
    Bool.and_eq_true, Bool.and_eq_false_iff, decide_eq_true_eq, decide_eq_false_iff_not]
    at hclean ⊢
  omega

namespace Json

section Escapes

/-- The hexadecimal digit of a number below sixteen. -/
private def hexDigit (n : Nat) : CodePoint := CodePoint.ofChar (Nat.digitChar (n % 16))

private theorem hexValue?_hexDigit (n : Nat) : (hexDigit n).hexValue? = some (n % 16) := by
  have hdigits : ∀ k < 16, (CodePoint.ofChar (Nat.digitChar k)).hexValue? = some k := by decide
  exact hdigits (n % 16) (Nat.mod_lt n (by decide))

/-- Four hexadecimal digits are read as the number that they were written for. -/
theorem pieces?_unit {n : Nat} (c : CodePoint) (hn : c.val = n) (hlt : n < 0x10000) (t : Text) :
    pieces? ("\\u" ++ Text.hexDigits 4 n ++ t) =
      (pieces? t).map fun r ↦ (.numeric c :: r.1, r.2) := by
  have hdigits : "\\u" ++ Text.hexDigits 4 n ++ t =
      CodePoint.ofChar '\\' :: CodePoint.ofChar 'u' :: hexDigit (n / 16 / 16 / 16) ::
        hexDigit (n / 16 / 16) :: hexDigit (n / 16) :: hexDigit n :: t := rfl
  have hunit : hex4? (hexDigit (n / 16 / 16 / 16)) (hexDigit (n / 16 / 16)) (hexDigit (n / 16))
      (hexDigit n) = some c := by
    have hvalue : ((n / 16 / 16 / 16 % 16 * 16 + n / 16 / 16 % 16) * 16 + n / 16 % 16) * 16
        + n % 16 = c.val := by omega
    simp only [hex4?, hexValue?_hexDigit, bind, Option.bind, hvalue, CodePoint.ofNat?, c.lt,
      ↓reduceDIte]
  have hquote : CodePoint.ofChar '\\' ≠ '"' := by decide
  rw [hdigits, pieces?, if_neg hquote, if_pos rfl]
  simp only [↓reduceIte, hunit, bind, Option.bind]
  cases pieces? t <;> rfl

/-- A short escape is read as the code point that it stands for. -/
theorem pieces?_short {e c : CodePoint} (hunit : e ≠ 'u') (he : shortEscape? e = some c)
    (t : Text) :
    pieces? (CodePoint.ofChar '\\' :: e :: t) =
      (pieces? t).map fun r ↦ (.plain c :: r.1, r.2) := by
  have hquote : CodePoint.ofChar '\\' ≠ '"' := by decide
  rw [pieces?.eq_def]
  simp only [hquote, hunit, ↓reduceIte, he, bind, Option.bind]
  cases pieces? t <;> rfl

/-- Any other code point that is no control character is read as it is. -/
theorem pieces?_plain {c : CodePoint} (hquote : c ≠ '"') (hslash : c ≠ '\\') (hc : ¬c.val < 0x20)
    (t : Text) : pieces? (c :: t) = (pieces? t).map fun r ↦ (.plain c :: r.1, r.2) := by
  rw [pieces?.eq_def]
  simp only [hquote, hslash, hc, ↓reduceIte, bind, Option.bind]
  cases pieces? t <;> rfl

/-- A code point is written by a short escape, by number or as it is. -/
theorem escape_cases (asciiOnly : Bool) (c : CodePoint) :
    (∃ e, escape asciiOnly c = [CodePoint.ofChar '\\', e] ∧ e ≠ 'u' ∧ shortEscape? e = some c) ∨
    (escape asciiOnly c = numericEscape c ∧ (c.val < 0x20 ∨ asciiOnly = true)) ∨
    (escape asciiOnly c = [c] ∧ c ≠ '"' ∧ c ≠ '\\' ∧ ¬c.val < 0x20) := by
  unfold escape
  split
  · next h => exact .inl ⟨'"', rfl, by decide, by rw [h]; rfl⟩
  next hquote =>
  split
  · next h => exact .inl ⟨'\\', rfl, by decide, by rw [h]; rfl⟩
  next hslash =>
  split
  · next h => exact .inl ⟨'n', rfl, by decide, by rw [h]; rfl⟩
  split
  · next h => exact .inl ⟨'r', rfl, by decide, by rw [h]; rfl⟩
  split
  · next h => exact .inl ⟨'t', rfl, by decide, by rw [h]; rfl⟩
  split
  · next h =>
    obtain ⟨n, hlt⟩ := c
    subst h
    exact .inl ⟨'b', rfl, by decide, rfl⟩
  split
  · next h =>
    obtain ⟨n, hlt⟩ := c
    subst h
    exact .inl ⟨'f', rfl, by decide, rfl⟩
  split
  · next h => exact .inr (.inl ⟨rfl, .inl h⟩)
  next hcontrol =>
  split
  · next h => exact .inr (.inl ⟨rfl, .inr h.1⟩)
  · exact .inr (.inr ⟨rfl, hquote, hslash, hcontrol⟩)

end Escapes

section Pieces

/-- The pieces that a text is written as: a code point as it is or by number, or by the numbers of
a surrogate pair. -/
inductive Spelled (asciiOnly : Bool) : Text → List Piece → Prop where
  | nil : Spelled asciiOnly [] []
  | plain {c t ps} : Spelled asciiOnly t ps → Spelled asciiOnly (c :: t) (.plain c :: ps)
  | numeric {c t ps} : c.val < 0x20 ∨ asciiOnly = true → Spelled asciiOnly t ps →
      Spelled asciiOnly (c :: t) (.numeric c :: ps)
  | pair {high low t ps} : high.isHighSurrogate = true → low.isLowSurrogate = true →
      Spelled asciiOnly t ps →
      Spelled asciiOnly (CodePoint.ofSurrogatePair high low :: t)
        (.numeric high :: .numeric low :: ps)

/-- A code point beyond the first 65536 is the one of its surrogate pair. -/
theorem exists_surrogatePair {c : CodePoint} (hc : ¬c.val < 0x10000) :
    ∃ high low : CodePoint, high.isHighSurrogate = true ∧ low.isLowSurrogate = true ∧
      CodePoint.ofSurrogatePair high low = c ∧
      numericEscape c =
        "\\u" ++ Text.hexDigits 4 high.val ++ ("\\u" ++ Text.hexDigits 4 low.val) := by
  have hlt := c.lt
  refine ⟨⟨0xD800 + (c.val - 0x10000) / 0x400, by omega⟩,
    ⟨0xDC00 + (c.val - 0x10000) % 0x400, by omega⟩, ?_, ?_, ?_, ?_⟩
  · simp only [CodePoint.isHighSurrogate, Bool.and_eq_true, decide_eq_true_eq]
    omega
  · simp only [CodePoint.isLowSurrogate, Bool.and_eq_true, decide_eq_true_eq]
    omega
  · obtain ⟨n, hn⟩ := c
    simp only [CodePoint.ofSurrogatePair, CodePoint.mk.injEq]
    dsimp only at hc
    omega
  · rw [numericEscape, if_neg hc, List.append_assoc, List.append_assoc]

/-- A written text is read as pieces that it is spelled by. -/
theorem pieces?_escaped (asciiOnly : Bool) (t : Text) :
    ∃ ps, Spelled asciiOnly t ps ∧ ∀ rest,
      pieces? (t.flatMap (escape asciiOnly) ++ CodePoint.ofChar '"' :: rest) = some (ps, rest) := by
  induction t with
  | nil =>
    refine ⟨[], .nil, fun rest ↦ ?_⟩
    rw [List.flatMap_nil, List.nil_append, pieces?.eq_def]
    rfl
  | cons c t ih =>
    obtain ⟨ps, hps, hread⟩ := ih
    simp only [List.flatMap_cons, List.append_assoc]
    rcases escape_cases asciiOnly c with ⟨e, htext, hunit, he⟩ | ⟨htext, hnumeric⟩ |
      ⟨htext, hquote, hslash, hcontrol⟩
    · refine ⟨.plain c :: ps, .plain hps, fun rest ↦ ?_⟩
      rw [htext, List.cons_append, List.cons_append, List.nil_append, pieces?_short hunit he, hread]
      rfl
    · by_cases hsmall : c.val < 0x10000
      · refine ⟨.numeric c :: ps, .numeric hnumeric hps, fun rest ↦ ?_⟩
        rw [htext, numericEscape, if_pos hsmall, pieces?_unit c rfl hsmall, hread]
        rfl
      · obtain ⟨high, low, hhigh, hlow, rfl, hescape⟩ := exists_surrogatePair hsmall
        refine ⟨.numeric high :: .numeric low :: ps, .pair hhigh hlow hps, fun rest ↦ ?_⟩
        have hhighlt : high.val < 0x10000 := by
          simp only [CodePoint.isHighSurrogate, Bool.and_eq_true, decide_eq_true_eq] at hhigh
          omega
        have hlowlt : low.val < 0x10000 := by
          simp only [CodePoint.isLowSurrogate, Bool.and_eq_true, decide_eq_true_eq] at hlow
          omega
        rw [htext, hescape, List.append_assoc, pieces?_unit high rfl hhighlt,
          pieces?_unit low rfl hlowlt, hread]
        rfl
    · refine ⟨.plain c :: ps, .plain hps, fun rest ↦ ?_⟩
      rw [htext, List.singleton_append, pieces?_plain hquote hslash hcontrol, hread]
      rfl

/-- A number that is no half of a pair with the next one stands for itself. -/
theorem joinPieces_numeric (c : CodePoint) (ps : List Piece)
    (h : ∀ d, ps.head? = some (.numeric d) →
      ¬(c.isHighSurrogate = true ∧ d.isLowSurrogate = true)) :
    joinPieces (.numeric c :: ps) = c :: joinPieces ps := by
  match ps with
  | [] => rfl
  | .plain d :: rest => rfl
  | .numeric d :: rest =>
    have hpair := h d rfl
    rw [← Bool.and_eq_true] at hpair
    rw [joinPieces, if_neg hpair]

/-- The pieces of a text are joined to the text. -/
theorem Spelled.joinPieces_eq {asciiOnly : Bool} {t : Text} {ps : List Piece}
    (h : Spelled asciiOnly t ps) (hjoined : asciiOnly = true → t.IsJoined) :
    joinPieces ps = t := by
  induction h with
  | nil => rfl
  | plain _ ih =>
    rw [joinPieces, ih fun hascii ↦ (hjoined hascii).of_cons]
  | @numeric c t ps hnumeric hps ih =>
    rw [joinPieces_numeric, ih fun hascii ↦ (hjoined hascii).of_cons]
    intro d hhead hpair
    have hhigh := hpair.1
    simp only [CodePoint.isHighSurrogate, Bool.and_eq_true, decide_eq_true_eq] at hhigh
    have hascii := hnumeric.resolve_left (by omega)
    cases hps with
    | nil => cases hhead
    | plain => cases hhead
    | numeric =>
      cases hhead
      exact (List.isChain_cons_cons.mp (hjoined hascii)).1 hpair
    | pair hhigh' =>
      cases hhead
      have hlow := hpair.2
      simp only [CodePoint.isHighSurrogate, CodePoint.isLowSurrogate, Bool.and_eq_true,
        decide_eq_true_eq] at hhigh' hlow
      omega
  | pair hhigh hlow _ ih =>
    rw [joinPieces, if_pos (by rw [hhigh, hlow]; rfl), ih fun hascii ↦ (hjoined hascii).of_cons]

/-- A string that was written is read back up to its closing quote. -/
theorem stringBody?_escaped {asciiOnly : Bool} {t : Text} (h : asciiOnly = true → t.IsJoined)
    (rest : Text) :
    stringBody? (t.flatMap (escape asciiOnly) ++ CodePoint.ofChar '"' :: rest) =
      some (t, rest) := by
  obtain ⟨ps, hps, hread⟩ := pieces?_escaped asciiOnly t
  simp only [stringBody?, hread, Option.map_some, hps.joinPieces_eq h]

end Pieces

end Json

end ApiTools
