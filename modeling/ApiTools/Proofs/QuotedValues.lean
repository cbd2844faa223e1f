import ApiTools.Emission.Project
import ApiTools.Proofs.AsciiTexts
import ApiTools.Proofs.JsonStrings
import ApiTools.Proofs.LiteralTexts
import ApiTools.Toml.Reader

/-!
# Reading quoted values

The quoted values of a package description are JSON strings in ASCII, read as basic strings of TOML.
Both formats agree on the short escapes and on those of four digits, but what JSON writes for a code
point beyond the first 65536 are the numbers of a surrogate pair, which TOML refuses one by one. So
a text is read back exactly if it stays within the first 65536 code points and holds no half of a
pair, and its value is no basic string else (`Toml.basicString?_quotedValue`).
-/

namespace ApiTools

/-- A code point that one number of four hexadecimal digits stands for. -/
def CodePoint.InBasicPlane (c : CodePoint) : Prop := c.val < 0x10000 ∧ c.isSurrogate = false

instance (c : CodePoint) : Decidable c.InBasicPlane := inferInstanceAs (Decidable (_ ∧ _))

/-- The text holds none but the first 65536 code points, and no surrogates. -/
def Text.InBasicPlane (t : Text) : Prop := ∀ c ∈ t, c.InBasicPlane

instance (t : Text) : Decidable t.InBasicPlane := inferInstanceAs (Decidable (∀ c ∈ t, _))

private theorem CodePoint.inBasicPlane_of_lt {c : CodePoint} (h : c.val < 0x80) : c.InBasicPlane :=
  ⟨by omega, isSurrogate_eq_false_iff.mpr (.inl (by omega))⟩

private theorem Text.inBasicPlane_cons_iff {c : CodePoint} {t : Text} :
    InBasicPlane (c :: t) ↔ c.InBasicPlane ∧ t.InBasicPlane :=
  List.forall_mem_cons

namespace Emission

/-- A code point as it is written in a quoted value. -/
def quotedChar (c : CodePoint) : Text := (Json.escape true c).flatMap escapeMarkup

/-- A value is quoted code point by code point. -/
theorem quotedValue_eq (t : Text) :
    quotedValue t = CodePoint.ofChar '"' :: (t.flatMap quotedChar ++ [CodePoint.ofChar '"']) := by
  rw [quotedValue, Json.quote, List.flatMap_append, List.flatMap_append, List.flatMap_assoc]
  rfl

/-- An escape by number has no sign of markup. -/
theorem flatMap_escapeMarkup_hexDigits (width n : Nat) :
    (Text.hexDigits width n).flatMap escapeMarkup = Text.hexDigits width n := by
  have hdigits : ∀ k < 16, escapeMarkup (CodePoint.ofChar (Nat.digitChar k)) =
      [CodePoint.ofChar (Nat.digitChar k)] := by decide
  induction width generalizing n with
  | zero => rfl
  | succ width ih =>
    rw [Text.hexDigits, List.flatMap_append, ih, List.flatMap_singleton,
      hdigits (n % 16) (Nat.mod_lt n (by decide))]

private theorem flatMap_escapeMarkup_numericEscape (c : CodePoint) :
    (Json.numericEscape c).flatMap escapeMarkup = Json.numericEscape c := by
  have hmark : ("\\u" : Text).flatMap escapeMarkup = "\\u" := by decide
  unfold Json.numericEscape
  split
  · rw [List.flatMap_append, hmark, flatMap_escapeMarkup_hexDigits]
  · simp only [List.flatMap_append, hmark, flatMap_escapeMarkup_hexDigits]

/-- A code point is written by a short escape, by number, or as it is. -/
theorem quotedChar_cases (c : CodePoint) :
    (∃ e, quotedChar c = [CodePoint.ofChar '\\', e] ∧ Toml.shortEscapes.lookup e = some c ∧
      e ≠ 'u' ∧ e ≠ 'U' ∧ c.val < 0x80) ∨
    quotedChar c = Json.numericEscape c ∨
    (quotedChar c = [c] ∧ c ≠ '"' ∧ c ≠ '\\' ∧ 0x20 ≤ c.val ∧ c.val < 0x7F) := by
  unfold quotedChar Json.escape
  split
  · next h => exact .inl ⟨'"', rfl, by rw [h]; rfl, by decide, by decide, by rw [h]; decide⟩
  next hquote =>
  split
  · next h => exact .inl ⟨'\\', rfl, by rw [h]; rfl, by decide, by decide, by rw [h]; decide⟩
  next hslash =>
  split
  · next h => exact .inl ⟨'n', rfl, by rw [h]; rfl, by decide, by decide, by rw [h]; decide⟩
  split
  · next h => exact .inl ⟨'r', rfl, by rw [h]; rfl, by decide, by decide, by rw [h]; decide⟩
  split
  · next h => exact .inl ⟨'t', rfl, by rw [h]; rfl, by decide, by decide, by rw [h]; decide⟩
  split
  · next h =>
    obtain ⟨n, hlt⟩ := c
    subst h
    exact .inl ⟨'b', rfl, rfl, by decide, by decide, (by decide : 8 < 0x80)⟩
  split
  · next h =>
    obtain ⟨n, hlt⟩ := c
    subst h
    exact .inl ⟨'f', rfl, rfl, by decide, by decide, (by decide : 12 < 0x80)⟩
  split
  · exact .inr (.inl (flatMap_escapeMarkup_numericEscape c))
  next hcontrol =>
  split
  · exact .inr (.inl (flatMap_escapeMarkup_numericEscape c))
  next hlarge =>
  rw [List.flatMap_singleton, escapeMarkup]
  split
  · exact .inr (.inl rfl)
  · exact .inr (.inr ⟨rfl, hquote, hslash, by omega, by simpa using hlarge⟩)

end Emission

namespace Toml

open Emission (quotedChar quotedValue)

variable {c : CodePoint} {t u : Text}

private theorem bodyFrom?_append (part u : Text) : bodyFrom? part.length (part ++ u) = body? u := by
  induction part with
  | nil => rfl
  | cons d part ih => exact ih

/-- Code points that stand for themselves are read back. -/
theorem body?_plain (ht : ∀ d ∈ t, isPlain d = true) (rest : Text) :
    body? (t ++ CodePoint.ofChar '"' :: rest) = some (t, rest) := by
  induction t with
  | nil => rfl
  | cons d t ih =>
    obtain ⟨hd, ht⟩ := List.forall_mem_cons.mp ht
    have hquote : d ≠ '"' := by
      rintro rfl
      cases hd
    have hslash : d ≠ '\\' := by
      rintro rfl
      cases hd
    have hrest : bodyFrom? 0 (t ++ CodePoint.ofChar '"' :: rest) = some (t, rest) := ih ht
    rw [List.cons_append, body?, bodyFrom?, if_neg hquote, if_neg hslash, if_pos hd, hrest]
    rfl

/-- What a backslash and some code points behind it stand for belongs to the string. -/
theorem body?_escape {part : Text} (h : escaped? (part ++ u) = some (c, part.length)) :
    body? (CodePoint.ofChar '\\' :: (part ++ u)) = (body? u).map fun r ↦ (c :: r.1, r.2) := by
  have hquote : CodePoint.ofChar '\\' ≠ '"' := by decide
  rw [body?, bodyFrom?, if_neg hquote, if_pos rfl, h]
  dsimp only
  rw [bodyFrom?_append]

/-- Four digits are read as their number, unless that is half of a surrogate pair. -/
theorem escaped?_hexDigits (c : CodePoint) (hc : c.val < 0x10000) (u : Text) :
    escaped? (CodePoint.ofChar 'u' :: (Text.hexDigits 4 c.val ++ u)) =
      if c.isSurrogate then none else some (c, 5) := by
  have hlength := Literal.length_hexDigits 4 c.val
  have hlong : ¬(Text.hexDigits 4 c.val ++ u).length < 4 := by
    rw [List.length_append]
    omega
  have htake : (Text.hexDigits 4 c.val ++ u).take 4 = Text.hexDigits 4 c.val := by
    rw [List.take_append_of_le_length (by omega), List.take_of_length_le (by omega)]
  have hmod : c.val % 16 ^ 4 = c.val := Nat.mod_eq_of_lt hc
  rw [escaped?, if_pos rfl, numbered?, if_neg hlong, htake, scalar?, Literal.hexNumber?_hexDigits,
    hmod, Option.bind_some, CodePoint.ofNat?, dif_pos c.lt, Option.filter_some]
  cases c.isSurrogate <;> rfl

/-- A code point is read back if it is written by one number at the most. -/
theorem body?_quotedChar (hc : c.InBasicPlane) (u : Text) :
    body? (quotedChar c ++ u) = (body? u).map fun r ↦ (c :: r.1, r.2) := by
  rcases Emission.quotedChar_cases c with ⟨e, htext, he, hunit, hlong, -⟩ | htext | ⟨htext, hplain⟩
  · have hread : escaped? ([e] ++ u) = some (c, [e].length) := by
      rw [List.singleton_append, escaped?, if_neg hunit, if_neg hlong, he]
      rfl
    rw [htext]
    exact body?_escape hread
  · have hread : escaped? (CodePoint.ofChar 'u' :: Text.hexDigits 4 c.val ++ u) =
        some (c, (CodePoint.ofChar 'u' :: Text.hexDigits 4 c.val).length) := by
      rw [List.cons_append, escaped?_hexDigits c hc.1, hc.2, List.length_cons,
        Literal.length_hexDigits]
      rfl
    rw [htext, Json.numericEscape, if_pos hc.1]
    exact body?_escape hread
  · obtain ⟨hquote, hslash, hlow, hhigh⟩ := hplain
    have hself : isPlain c = true := by
      simp [isPlain, hquote, hslash, hlow, hc.2]
      omega
    rw [htext, List.singleton_append, body?, bodyFrom?, if_neg hquote, if_neg hslash, if_pos hself]
    rfl

/-- Half of a surrogate pair and what is written as two of them are refused. -/
theorem body?_quotedChar_eq_none (hc : ¬c.InBasicPlane) (u : Text) :
    body? (quotedChar c ++ u) = none := by
  have hhalf : ∀ (d : CodePoint) (more : Text), d.isSurrogate = true →
      body? ("\\u" ++ Text.hexDigits 4 d.val ++ more) = none := by
    intro d more hd
    have hlt : d.val < 0x10000 := by
      simp only [CodePoint.isSurrogate, Bool.and_eq_true, decide_eq_true_eq] at hd
      omega
    have hquote : CodePoint.ofChar '\\' ≠ '"' := by decide
    have hread := escaped?_hexDigits d hlt more
    rw [hd, if_pos rfl] at hread
    show bodyFrom? 0 (CodePoint.ofChar '\\' :: CodePoint.ofChar 'u' ::
      (Text.hexDigits 4 d.val ++ more)) = none
    rw [bodyFrom?, if_neg hquote, if_pos rfl, hread]
  rcases Emission.quotedChar_cases c with ⟨_, -, -, -, -, hlow⟩ | htext | ⟨-, -, -, -, hhigh⟩
  · exact absurd (CodePoint.inBasicPlane_of_lt hlow) hc
  · rw [htext]
    by_cases hlt : c.val < 0x10000
    · rw [Json.numericEscape, if_pos hlt]
      exact hhalf c u (by simpa [CodePoint.InBasicPlane, hlt] using hc)
    · obtain ⟨high, low, hhigh, -, -, hescape⟩ := Json.exists_surrogatePair hlt
      rw [hescape, List.append_assoc]
      refine hhalf high _ ?_
      simp only [CodePoint.isHighSurrogate, CodePoint.isSurrogate, Bool.and_eq_true,
        decide_eq_true_eq] at hhigh ⊢
      omega
  · exact absurd (CodePoint.inBasicPlane_of_lt (by omega)) hc

private theorem body?_quoted (t rest : Text) :
    body? (t.flatMap quotedChar ++ CodePoint.ofChar '"' :: rest) =
      if t.InBasicPlane then some (t, rest) else none := by
  induction t with
  | nil => rfl
  | cons c t ih =>
    rw [List.flatMap_cons, List.append_assoc]
    simp only [Text.inBasicPlane_cons_iff]
    by_cases hc : c.InBasicPlane
    · simp only [body?_quotedChar hc, ih, hc, true_and]
      split <;> rfl
    · simp only [body?_quotedChar_eq_none hc, hc, false_and, ↓reduceIte]

/-- Code points that stand for themselves are a basic string between quotes. -/
theorem basicString?_plain (ht : ∀ d ∈ t, isPlain d = true) :
    basicString? ("\"" ++ t ++ "\"") = some t := by
  have hbody : body? (t ++ "\"") = some (t, []) := body?_plain ht []
  have hstart : ("\"" ++ t ++ "\"" : Text) = CodePoint.ofChar '"' :: (t ++ "\"") := rfl
  rw [hstart, basicString?, if_pos rfl, hbody]

/-- A quoted value is a basic string for its text exactly if that stays in the basic plane. -/
theorem basicString?_quotedValue (t : Text) :
    basicString? (quotedValue t) = if t.InBasicPlane then some t else none := by
  rw [Emission.quotedValue_eq, basicString?, if_pos rfl, body?_quoted]
  by_cases h : t.InBasicPlane
  · rw [if_pos h, if_pos h]
  · rw [if_neg h, if_neg h]

end Toml

end ApiTools
