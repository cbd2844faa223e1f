import ApiTools.Proofs.Correspondence
import ApiTools.Proofs.JsonArguments
import ApiTools.Proofs.SplitTexts
import ApiTools.Proofs.Utf8RoundTrip
import ApiTools.Request.QueryReader

/-!
# Reading queries that were encoded

An encoded text has neither of the signs that queries are split at. So the parts of a query are
found again, and each of them is read back to the name and the text that it was made of
(`Query.decode?_of_encode?`).
-/

namespace ApiTools

namespace Query

open Encoding (utf8Bytes)

section Bytes

private theorem hexValue?_upperHex : ∀ n < 16, (upperHex n).hexValue? = some n := by decide

/-- A byte is read back from its escape. -/
theorem bytesOf_percent (b : UInt8) (rest : Text) :
    bytesOf (percent b ++ rest) = b :: bytesOf rest := by
  have hb : b.toNat < 256 := UInt8.toNat_lt b
  have hescape :
      escaped? (upperHex (b.toNat / 16) :: upperHex (b.toNat % 16) :: rest) = some b := by
    have hvalue : 16 * (b.toNat / 16) + b.toNat % 16 = b.toNat := Nat.div_add_mod _ _
    simp only [escaped?, hexValue?_upperHex (b.toNat / 16) (by omega),
      hexValue?_upperHex (b.toNat % 16) (by omega), bind, Option.bind_some, pure, hvalue,
      UInt8.ofNat_toNat]
  have hne : CodePoint.ofChar '%' ≠ CodePoint.ofChar '+' := by decide
  simp only [percent, List.cons_append, List.nil_append, bytesOf, bytesFrom, hne, if_false, if_true,
    hescape]

private theorem bytesOf_flatMap_percent (bs : Bytes) (rest : Text) :
    bytesOf (bs.flatMap percent ++ rest) = bs ++ bytesOf rest := by
  induction bs with
  | nil => rfl
  | cons b bs ih =>
    rw [List.flatMap_cons, List.append_assoc, bytesOf_percent, ih]
    rfl

/-- A code point is read back from its encoded form as its bytes. -/
theorem bytesOf_encodeChar (c : CodePoint) (rest : Text) :
    bytesOf (encodeChar c ++ rest) = utf8Bytes c ++ bytesOf rest := by
  rw [encodeChar]
  split
  · next hplain =>
    have hplus : c ≠ CodePoint.ofChar '+' := by
      rintro rfl
      exact absurd hplain (by decide)
    have hpercent : c ≠ CodePoint.ofChar '%' := by
      rintro rfl
      exact absurd hplain (by decide)
    simp only [List.singleton_append, bytesOf, bytesFrom, hplus, hpercent, if_false]
  · split
    · next hblank =>
      rw [hblank]
      simp only [List.singleton_append, bytesOf, bytesFrom, if_true]
    · exact bytesOf_flatMap_percent _ rest

private theorem bytesOf_flatMap_encodeChar (t : Text) :
    bytesOf (t.flatMap encodeChar) = t.flatMap utf8Bytes := by
  induction t with
  | nil => rfl
  | cons c t ih => rw [List.flatMap_cons, bytesOf_encodeChar, ih, List.flatMap_cons]

/-- A text is read back from its encoded form. -/
theorem decodeText?_of_encodeText? {t encoded : Text} (h : encodeText? t = some encoded) :
    decodeText? encoded = some t := by
  obtain ⟨hclean, rfl⟩ := encodeText?_eq_some_iff.mp h
  rw [decodeText?, bytesOf_flatMap_encodeChar]
  exact Encoding.decodeUtf8?_flatMap (.inr hclean)

end Bytes

section Signs

private theorem isUnreserved_upperHex : ∀ n < 16, isUnreserved (upperHex n) = true := by decide

/-- Encoded forms are made of code points that stand for themselves and two signs. -/
theorem of_mem_encodeChar {c d : CodePoint} (h : d ∈ encodeChar c) :
    isUnreserved d = true ∨ d = CodePoint.ofChar '+' ∨ d = CodePoint.ofChar '%' := by
  rw [encodeChar] at h
  split at h
  · next hplain =>
    rw [List.mem_singleton.mp h]
    exact .inl hplain
  · split at h
    · exact .inr (.inl (List.mem_singleton.mp h))
    · obtain ⟨b, -, hd⟩ := List.mem_flatMap.mp h
      have hb : b.toNat < 256 := UInt8.toNat_lt b
      simp only [percent, List.mem_cons, List.not_mem_nil, or_false] at hd
      rcases hd with rfl | rfl | rfl
      · exact .inr (.inr rfl)
      · exact .inl (isUnreserved_upperHex _ (by omega))
      · exact .inl (isUnreserved_upperHex _ (by omega))

/-- A code point that is in no encoded text. -/
def IsSign (c : CodePoint) : Prop :=
  ¬(isUnreserved c = true ∨ c = CodePoint.ofChar '+' ∨ c = CodePoint.ofChar '%')

instance (c : CodePoint) : Decidable (IsSign c) := inferInstanceAs (Decidable (¬_))

private theorem notMem_of_encodeText? {t encoded : Text} (h : encodeText? t = some encoded)
    {sign : CodePoint} (hsign : IsSign sign) : sign ∉ encoded := by
  obtain ⟨-, rfl⟩ := encodeText?_eq_some_iff.mp h
  intro hmem
  obtain ⟨c, -, hc⟩ := List.mem_flatMap.mp hmem
  exact hsign (of_mem_encodeChar hc)

end Signs

section Pairs

variable {pair : Text × Text} {pairs : List (Text × Text)} {part query : Text}

private theorem encodePair?_eq_some_iff : encodePair? pair = some part ↔ ∃ name text,
    encodeText? pair.1 = some name ∧ encodeText? pair.2 = some text ∧
      part = name ++ CodePoint.ofChar '=' :: text := by
  simp only [encodePair?, bind, pure, Option.bind_eq_some_iff, Option.some.injEq]
  constructor
  · rintro ⟨name, hname, text, htext, rfl⟩
    exact ⟨name, text, hname, htext, List.append_assoc _ _ _⟩
  · rintro ⟨name, text, hname, htext, rfl⟩
    exact ⟨name, hname, text, htext, List.append_assoc _ _ _⟩

/-- A part is read back to the name and the text that it was made of. -/
theorem decodePair?_of_encodePair? (h : encodePair? pair = some part) :
    decodePair? part = some pair := by
  obtain ⟨name, text, hname, htext, rfl⟩ := encodePair?_eq_some_iff.mp h
  have hequals : CodePoint.ofChar '=' ∉ name := notMem_of_encodeText? hname (by decide)
  have hcut := Text.cut_append_cons hequals text
  simp only [decodePair?, hcut, decodeText?_of_encodeText? hname, Option.getD_some,
    decodeText?_of_encodeText? htext, bind, Option.bind_some, pure]

/-- The sign between parts is in none of them. -/
theorem ampersand_notMem (h : encodePair? pair = some part) : CodePoint.ofChar '&' ∉ part := by
  obtain ⟨name, text, hname, htext, rfl⟩ := encodePair?_eq_some_iff.mp h
  rw [List.mem_append, List.mem_cons, not_or, not_or]
  exact ⟨notMem_of_encodeText? hname (by decide), by decide,
    notMem_of_encodeText? htext (by decide)⟩

private theorem ne_nil_of_encodePair? (h : encodePair? pair = some part) : part ≠ [] := by
  obtain ⟨name, text, -, -, rfl⟩ := encodePair?_eq_some_iff.mp h
  simp

/-- A query is made of the parts of its names and texts. -/
theorem encode?_eq_some_iff : encode? pairs = some query ↔ ∃ parts,
    List.Forall₂ (fun pair part ↦ encodePair? pair = some part) pairs parts ∧
      Text.join "&" parts = query := by
  have hparts : ∀ parts, pairs.mapM encodePair? = some parts ↔
      List.Forall₂ (fun pair part ↦ encodePair? pair = some part) pairs parts := by
    induction pairs with
    | nil => simp [eq_comm]
    | cons pair rest ih =>
      intro parts
      simp only [List.mapM_cons, bind, pure, Option.bind_eq_some_iff, ih, Option.some.injEq]
      constructor
      · rintro ⟨part, hpart, others, hothers, rfl⟩
        exact .cons hpart hothers
      · rintro (_ | ⟨hpart, hothers⟩)
        exact ⟨_, hpart, _, hothers, rfl⟩
  simp only [encode?, bind, pure, Option.bind_eq_some_iff, hparts, Option.some.injEq]

private theorem mapM_decodePair? {parts : List Text}
    (h : List.Forall₂ (fun pair part ↦ encodePair? pair = some part) pairs parts) :
    parts.mapM decodePair? = some pairs := by
  induction h with
  | nil => rfl
  | cons hpart _ ih =>
    rw [List.mapM_cons, decodePair?_of_encodePair? hpart, ih]
    rfl

/-- Names and texts are read back from their query, in order. -/
theorem decode?_of_encode? (h : encode? pairs = some query) : decode? query = some pairs := by
  obtain ⟨parts, hparts, rfl⟩ := encode?_eq_some_iff.mp h
  rw [decode?, ← mapM_decodePair? hparts]
  congr 1
  by_cases hnone : parts = []
  · subst hnone
    rfl
  · have hfree : ∀ part ∈ parts, CodePoint.ofChar '&' ∉ part := by
      intro part hpart
      obtain ⟨pair, -, hpair⟩ := exists_partner hparts hpart
      exact ampersand_notMem hpair
    have hjoin : Text.join "&" parts = Text.join [CodePoint.ofChar '&'] parts := rfl
    rw [hjoin, Text.splitOn_join hnone hfree, List.filter_eq_self]
    intro part hpart
    obtain ⟨pair, -, hpair⟩ := exists_partner hparts hpart
    exact decide_eq_true (ne_nil_of_encodePair? hpair)

end Pairs

end Query

end ApiTools
