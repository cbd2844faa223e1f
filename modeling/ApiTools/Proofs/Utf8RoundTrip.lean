import ApiTools.Encoding.Detect

/-!
# Reading UTF-8 that was written

A text is read back from its UTF-8 bytes (`decodeUtf8?_flatMap`), and so is a document in UTF-8
without a byte order mark whose first two characters are no zeros and the first of them ASCII
(`decode?_flatMap`).
-/

namespace ApiTools

namespace Encoding

section CodePoints

/-- A code point is accepted in a form that is no longer than needed. -/
theorem codePoint?_val {surrogates : Bool} {c : CodePoint}
    (hc : surrogates = true ∨ c.isSurrogate = false) {least n : Nat} (hn : n = c.val)
    (hleast : least ≤ n) : codePoint? surrogates least n = some c := by
  subst hn
  have hsurrogate : (c.isSurrogate && !surrogates) = false := by
    rcases hc with rfl | hc
    · simp
    · rw [hc, Bool.false_and]
  simp only [codePoint?, Nat.not_lt.mpr hleast, ↓reduceIte, CodePoint.ofNat?, c.lt, ↓reduceDIte,
    hsurrogate, Bool.false_eq_true]

private theorem toNat_ofNat {n : Nat} (h : n < 256) : (UInt8.ofNat n).toNat = n := by
  rw [UInt8.toNat_ofNat']
  exact Nat.mod_eq_of_lt h

private theorem isContinuation_ofNat (n : Nat) :
    isContinuation (UInt8.ofNat (0x80 + n % 0x40)) = true ∧
      lowBits (UInt8.ofNat (0x80 + n % 0x40)) = n % 0x40 := by
  have hvalue := @toNat_ofNat (0x80 + n % 0x40) (by omega)
  constructor
  · simp only [isContinuation, hvalue, Bool.and_eq_true, decide_eq_true_eq]
    omega
  · unfold lowBits
    omega

/-- A code point is read back from its bytes. -/
theorem decodeUtf8?_utf8Bytes {surrogates : Bool} {c : CodePoint}
    (hc : surrogates = true ∨ c.isSurrogate = false) (rest : Bytes) :
    decodeUtf8? surrogates (utf8Bytes c ++ rest) = (decodeUtf8? surrogates rest).map (c :: ·) := by
  have hlt := c.lt
  have hbind : ∀ x : Option Text,
      (x.bind fun t ↦ (some (c :: t) : Option Text)) = x.map (c :: ·) := fun x ↦ by cases x <;> rfl
  unfold utf8Bytes
  dsimp only
  split
  · next h =>
    have hlead := @toNat_ofNat c.val (by omega)
    rw [List.singleton_append, decodeUtf8?.eq_def]
    simp only [hlead, h, ↓reduceIte, codePoint?_val hc rfl (Nat.zero_le _), bind, Option.bind_some,
      pure, hbind]
  split
  · next h₁ h₂ =>
    have hlead := @toNat_ofNat (0xC0 + c.val / 0x40) (by omega)
    obtain ⟨hb, hblow⟩ := isContinuation_ofNat c.val
    have hpoint := @codePoint?_val surrogates c hc 0x80
      ((0xC0 + c.val / 0x40 - 0xC0) * 0x40 + c.val % 0x40) (by omega) (by omega)
    rw [List.cons_append, List.singleton_append, decodeUtf8?.eq_def]
    simp only [hlead, show ¬0xC0 + c.val / 0x40 < 0x80 by omega,
      show 0xC0 + c.val / 0x40 < 0xE0 by omega, show 0xC0 ≤ 0xC0 + c.val / 0x40 by omega, hb, hblow,
      hpoint, decide_true, Bool.and_self, ↓reduceIte, bind, Option.bind_some, pure, hbind]
  split
  · next h₁ h₂ h₃ =>
    have hlead := @toNat_ofNat (0xE0 + c.val / 0x1000) (by omega)
    obtain ⟨hb, hblow⟩ := isContinuation_ofNat (c.val / 0x40)
    obtain ⟨hd, hdlow⟩ := isContinuation_ofNat c.val
    have hpoint := @codePoint?_val surrogates c hc 0x800
      ((0xE0 + c.val / 0x1000 - 0xE0) * 0x1000 + c.val / 0x40 % 0x40 * 0x40 + c.val % 0x40)
      (by omega) (by omega)
    simp only [List.cons_append, List.nil_append]
    rw [decodeUtf8?.eq_def]
    simp only [hlead, show ¬0xE0 + c.val / 0x1000 < 0x80 by omega,
      show ¬0xE0 + c.val / 0x1000 < 0xE0 by omega, show 0xE0 + c.val / 0x1000 < 0xF0 by omega, hb,
      hblow, hd, hdlow, hpoint, Bool.and_self, ↓reduceIte, bind, Option.bind_some, pure, hbind]
  · next h₁ h₂ h₃ =>
    have hlead := @toNat_ofNat (0xF0 + c.val / 0x40000) (by omega)
    obtain ⟨hb, hblow⟩ := isContinuation_ofNat (c.val / 0x1000)
    obtain ⟨hd, hdlow⟩ := isContinuation_ofNat (c.val / 0x40)
    obtain ⟨he, helow⟩ := isContinuation_ofNat c.val
    have hpoint := @codePoint?_val surrogates c hc 0x10000
      ((0xF0 + c.val / 0x40000 - 0xF0) * 0x40000 + c.val / 0x1000 % 0x40 * 0x1000 +
        c.val / 0x40 % 0x40 * 0x40 + c.val % 0x40) (by omega) (by omega)
    simp only [List.cons_append, List.nil_append]
    rw [decodeUtf8?.eq_def]
    simp only [hlead, show ¬0xF0 + c.val / 0x40000 < 0x80 by omega,
      show ¬0xF0 + c.val / 0x40000 < 0xE0 by omega, show ¬0xF0 + c.val / 0x40000 < 0xF0 by omega,
      hb, hblow, hd, hdlow, he, helow, hpoint, Bool.and_self, ↓reduceIte, bind, Option.bind_some,
      pure, hbind]

/-- A text is read back from its bytes. -/
theorem decodeUtf8?_flatMap {surrogates : Bool} {t : Text}
    (ht : surrogates = true ∨ t.IsClean) :
    decodeUtf8? surrogates (t.flatMap utf8Bytes) = some t := by
  induction t with
  | nil => rfl
  | cons c t ih =>
    have hc : surrogates = true ∨ c.isSurrogate = false :=
      ht.imp_right fun h ↦ h c List.mem_cons_self
    have hrest : surrogates = true ∨ Text.IsClean t :=
      ht.imp_right fun h d hd ↦ h d (List.mem_cons_of_mem c hd)
    rw [List.flatMap_cons, decodeUtf8?_utf8Bytes hc, ih hrest]
    rfl

end CodePoints

section Documents

/-- The first byte of a code point other than zero is not zero. -/
theorem exists_utf8Bytes {c : CodePoint} (hc : c.val ≠ 0) :
    ∃ b rest, utf8Bytes c = b :: rest ∧ b ≠ 0 := by
  have hlt := c.lt
  have hne : ∀ n < 256, n ≠ 0 → UInt8.ofNat n ≠ 0 := fun n hn hzero h ↦ by
    have hvalue := congrArg UInt8.toNat h
    rw [toNat_ofNat hn] at hvalue
    exact hzero hvalue
  unfold utf8Bytes
  dsimp only
  split
  · exact ⟨_, _, rfl, hne _ (by omega) hc⟩
  split
  · exact ⟨_, _, rfl, hne _ (by omega) (by omega)⟩
  split
  · exact ⟨_, _, rfl, hne _ (by omega) (by omega)⟩
  · exact ⟨_, _, rfl, hne _ (by omega) (by omega)⟩

/-- Bytes whose first two are no zeros and the first of them ASCII are UTF-8 without a byte order
mark. -/
theorem detect_utf8 {a : UInt8} {rest : Bytes} (hzero : a ≠ 0) (hascii : a.toNat < 0x80)
    (hrest : ∀ b ∈ rest.head?, b ≠ 0) : detect (a :: rest) = (.utf8, a :: rest) := by
  have hmark : ∀ n : UInt8, 0x80 ≤ n.toNat → a ≠ n := by
    rintro n hn rfl
    exact Nat.not_lt.mpr hn hascii
  have hscheme : schemeOfZeros (a :: rest) = .utf8 := by
    unfold schemeOfZeros
    split
    · next b h =>
      cases h
      rw [if_neg hzero, if_neg (hrest b rfl)]
    · next b c d rest' h =>
      cases h
      rw [if_neg hzero, if_neg (hrest b rfl)]
    · rfl
  unfold detect
  split
  · next h => exact absurd (List.cons.inj h).1 hzero
  · next h => exact absurd (List.cons.inj h).1 (hmark _ (by decide))
  · next h => exact absurd (List.cons.inj h).1 (hmark _ (by decide))
  · next h => exact absurd (List.cons.inj h).1 (hmark _ (by decide))
  · next h => exact absurd (List.cons.inj h).1 (hmark _ (by decide))
  · rw [hscheme]

/-- A document in UTF-8 is read back, if its first two characters are no zeros and the first of
them is ASCII. -/
theorem decode?_flatMap {c : CodePoint} {t : Text} (hzero : c.val ≠ 0) (hascii : c.val < 0x80)
    (ht : ∀ d ∈ t.head?, d.val ≠ 0) : decode? ((c :: t).flatMap utf8Bytes) = some (c :: t) := by
  have hlead : utf8Bytes c = [UInt8.ofNat c.val] := by
    unfold utf8Bytes
    dsimp only
    rw [if_pos hascii]
  have hvalue := @toNat_ofNat c.val (by omega)
  have hhead : ∀ b ∈ (t.flatMap utf8Bytes).head?, b ≠ 0 := by
    cases t with
    | nil => nofun
    | cons d u =>
      obtain ⟨b, rest, hbytes, hb⟩ := exists_utf8Bytes (ht d rfl)
      rw [List.flatMap_cons, hbytes]
      rintro _ ⟨⟩
      exact hb
  have hdetect : detect ((c :: t).flatMap utf8Bytes) = (.utf8, (c :: t).flatMap utf8Bytes) := by
    rw [List.flatMap_cons, hlead]
    refine detect_utf8 (fun h ↦ hzero ?_) (by omega) hhead
    rw [← hvalue, h]
    rfl
  rw [decode?, hdetect]
  exact decodeUtf8?_flatMap (.inl rfl)

end Documents

end Encoding

end ApiTools
