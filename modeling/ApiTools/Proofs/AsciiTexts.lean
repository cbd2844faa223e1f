import ApiTools.Json.Writer
import ApiTools.Literal.Basic
import ApiTools.Proofs.DecimalNotation

/-!
# Texts in ASCII

Numbers are written in ASCII without its zero, and so are byte strings (`Literal.isAscii_bytes`) and
JSON values in a style that writes every other code point by number (`Json.isAscii_write`). What is
in ASCII holds no surrogate (`IsAscii.isClean`).
-/

namespace ApiTools

/-- All code points but those in one range are no surrogates. -/
theorem CodePoint.isSurrogate_eq_false_iff {c : CodePoint} :
    c.isSurrogate = false ↔ c.val < 0xD800 ∨ 0xE000 ≤ c.val := by
  simp [isSurrogate]
  omega

namespace Text

/-- A text of ASCII code points other than zero. -/
def IsAscii (t : Text) : Prop := ∀ c ∈ t, 0 < c.val ∧ c.val < 0x80

instance (t : Text) : Decidable t.IsAscii := inferInstanceAs (Decidable (∀ c ∈ t, _))

section Closure

variable {t u : Text} {c : CodePoint}

/-- Two texts in ASCII are one together. -/
theorem IsAscii.append (ht : t.IsAscii) (hu : u.IsAscii) : (t ++ u).IsAscii := by
  intro c hc
  rcases List.mem_append.mp hc with hc | hc
  · exact ht c hc
  · exact hu c hc

/-- A code point of ASCII before a text in it is such a text. -/
theorem IsAscii.cons (hc : 0 < c.val ∧ c.val < 0x80) (ht : t.IsAscii) : IsAscii (c :: t) := by
  intro d hd
  rcases List.mem_cons.mp hd with rfl | hd
  · exact hc
  · exact ht d hd

/-- Texts in ASCII, one for each element of a list, are one together. -/
theorem IsAscii.flatMap {α : Type} {f : α → Text} (hf : ∀ a, (f a).IsAscii) (l : List α) :
    IsAscii (l.flatMap f) := by
  intro d hd
  obtain ⟨a, -, hd⟩ := List.mem_flatMap.mp hd
  exact hf a d hd

/-- Digits are in ASCII. -/
theorem IsDigits.isAscii (ht : t.IsDigits) : t.IsAscii := by
  intro c hc
  have hdigit := ht c hc
  simp only [CodePoint.isAsciiDigit, Bool.and_eq_true, decide_eq_true_eq] at hdigit
  omega

/-- No surrogate is in ASCII. -/
theorem IsAscii.isClean (ht : t.IsAscii) : t.IsClean := by
  intro c hc
  have hascii := ht c hc
  exact CodePoint.isSurrogate_eq_false_iff.mpr (.inl (by omega))

end Closure

section Numbers

private theorem isAscii_hexDigits (width n : Nat) : (hexDigits width n).IsAscii := by
  induction width generalizing n with
  | zero => exact nofun
  | succ width ih =>
    have hdigits : ∀ k < 16, 0 < (CodePoint.ofChar (Nat.digitChar k)).val ∧
        (CodePoint.ofChar (Nat.digitChar k)).val < 0x80 := by decide
    exact (ih (n / 16)).append (.cons (hdigits _ (Nat.mod_lt n (by decide))) nofun)

private theorem isAscii_ofNat (n : Nat) : (ofNat n).IsAscii := (isDigits_ofNat n).isAscii

/-- Whole numbers are written in ASCII. -/
theorem isAscii_ofInt (i : Int) : (ofInt i).IsAscii := by
  unfold ofInt
  split
  · exact .cons (by decide) (isAscii_ofNat _)
  · exact isAscii_ofNat _

end Numbers

end Text

namespace Double

open Text (isAscii_ofNat IsDigits IsAscii)

private theorem isAscii_positional {digits : Text} (h : digits.IsDigits) (whole : Int) :
    (positional digits whole).IsAscii := by
  have hzeros : ∀ n, (zeros n).IsAscii := fun n ↦ (Text.isDigits_zeros n).isAscii
  unfold positional
  split
  · exact (IsAscii.append (by decide) (hzeros _)).append h.isAscii
  · split
    · exact (h.isAscii.append (hzeros _)).append (by decide)
    · exact ((h.take _).isAscii.append (by decide)).append (h.drop _).isAscii

private theorem isAscii_exponentText (exponent : Int) : (exponentText exponent).IsAscii := by
  refine IsAscii.append (.append ?_ (Text.isDigits_zeros _).isAscii) (isAscii_ofNat _)
  split <;> decide

private theorem isAscii_scientific {digits : Text} (h : digits.IsDigits) (exponent : Int) :
    (scientific digits exponent).IsAscii := by
  have hpoint : (if digits.length ≤ 1 then [] else "." : Text).IsAscii := by
    split <;> decide
  exact ((((h.take 1).isAscii.append hpoint).append (h.drop 1).isAscii).append (by decide)).append
    (isAscii_exponentText exponent)

/-- A double is written in ASCII if its layout names the numbers that are not finite so. -/
theorem isAscii_render {layout : Layout} (hnan : layout.nan.IsAscii)
    (hinfinity : layout.infinity.IsAscii) (x : Double) : (x.render layout).IsAscii := by
  have hsign : ∀ negative, (signText negative).IsAscii := by decide
  cases x with
  | nan => exact hnan
  | infinite negative => exact (hsign negative).append hinfinity
  | finite negative e f =>
    refine (hsign negative).append ?_
    have hdigits := Text.isDigits_ofNat (Decimal.shortest e f).digits
    split
    · exact isAscii_positional (by decide) 1
    · split
      · exact isAscii_positional hdigits _
      · exact isAscii_scientific hdigits _

end Double

namespace Literal

open Text (isAscii_hexDigits IsAscii)

/-- An escape by number is in ASCII. -/
theorem isAscii_numericEscape (n : Nat) : (numericEscape n).IsAscii := by
  unfold numericEscape
  split
  · exact .append (by decide) (isAscii_hexDigits _ _)
  split
  · exact .append (by decide) (isAscii_hexDigits _ _)
  · exact .append (by decide) (isAscii_hexDigits _ _)

private theorem isAscii_escape {c : CodePoint} (hc : 0 < c.val ∧ c.val < 0x80) (mark : CodePoint) :
    (escape mark c).IsAscii := by
  unfold escape
  split
  · exact .cons (by decide) (.cons hc nofun)
  -- The short escapes stand first, one `if` for each of them.
  iterate 3
    split
    · decide
  split
  · exact .cons hc nofun
  · exact isAscii_numericEscape _

private theorem isAscii_escapeByte (mark : CodePoint) (b : UInt8) :
    (escapeByte mark b).IsAscii := by
  have hshown : ∀ n < 0x7F, (CodePoint.ofChar (Char.ofNat n)).val = n := by decide
  unfold escapeByte
  split
  · next h =>
    have hval := hshown b.toNat h.2
    exact isAscii_escape (by omega) mark
  iterate 3
    split
    · decide
  · exact isAscii_numericEscape _

/-- A byte string is written in ASCII. -/
theorem isAscii_bytes (bs : Bytes) : (bytes bs).IsAscii := by
  have hmarked : ∀ mark : CodePoint, 0 < mark.val ∧ mark.val < 0x80 →
      IsAscii ("b" ++ mark :: bs.flatMap (escapeByte mark) ++ [mark]) := fun mark hmark ↦
    (IsAscii.append (by decide) (.cons hmark (.flatMap (isAscii_escapeByte mark) bs))).append
      (.cons hmark nofun)
  unfold bytes
  dsimp only
  split
  · exact hmarked _ (by decide)
  · exact hmarked _ (by decide)

end Literal

namespace Json

open Text (isAscii_ofInt isAscii_hexDigits IsAscii)

/-- A style that writes in ASCII alone. -/
structure Style.WritesAscii (style : Style) : Prop where
  asciiOnly : style.asciiOnly = true
  separator : style.separator.IsAscii
  colon : style.colon.IsAscii

/-- The style for bodies writes ASCII. -/
theorem Style.writesAscii_compactAscii : compactAscii.WritesAscii := ⟨rfl, by decide, by decide⟩

/-- An escape by number is in ASCII. -/
theorem isAscii_numericEscape (c : CodePoint) : (numericEscape c).IsAscii := by
  unfold numericEscape
  split
  · exact .append (by decide) (isAscii_hexDigits _ _)
  · exact ((IsAscii.append (by decide) (isAscii_hexDigits _ _)).append (by decide)).append
      (isAscii_hexDigits _ _)

private theorem isAscii_escape (c : CodePoint) : (escape true c).IsAscii := by
  unfold escape
  -- The short escapes stand first, one `if` for each of them.
  iterate 7
    split
    · decide
  split
  · exact isAscii_numericEscape c
  · next hsmall =>
    split
    · exact isAscii_numericEscape c
    · next hlarge =>
      simp only [true_and] at hlarge
      exact .cons (by omega) nofun

/-- A text is quoted in ASCII where everything else is escaped. -/
theorem isAscii_quote (t : Text) : (quote true t).IsAscii :=
  (IsAscii.append (by decide) (.flatMap isAscii_escape t)).append (by decide)

/-- Line breaks are in ASCII. -/
theorem Style.isAscii_lineBreak (style : Style) (level : Nat) :
    (style.lineBreak level).IsAscii := by
  unfold lineBreak
  split
  · exact nofun
  · refine .cons (by decide) fun c hc ↦ ?_
    rw [List.eq_of_mem_replicate hc]
    decide

section Values

variable {style : Style}

mutual

private theorem isAscii_writeAt (h : style.WritesAscii) (level : Nat) (v : Json) :
    (writeAt style level v).IsAscii := by
  have hquote : ∀ t, (quote style.asciiOnly t).IsAscii := by
    rw [h.asciiOnly]
    exact isAscii_quote
  match v with
  | .null => exact (by decide : IsAscii "null")
  | .bool true => exact (by decide : IsAscii "true")
  | .bool false => exact (by decide : IsAscii "false")
  | .int i => exact isAscii_ofInt i
  | .float x => exact Double.isAscii_render (by decide) (by decide) x
  | .string t => exact hquote t
  | .array [] => exact (by decide : IsAscii "[]")
  | .array (v :: rest) =>
    exact ((((IsAscii.append (by decide) (style.isAscii_lineBreak _)).append
      (isAscii_writeAt h (level + 1) v)).append (isAscii_writeItems h (level + 1) rest)).append
      (style.isAscii_lineBreak _)).append (by decide)
  | .object [] => exact (by decide : IsAscii "\x7b\x7d")
  | .object ((name, v) :: rest) =>
    exact ((((((IsAscii.append (by decide) (style.isAscii_lineBreak _)).append
      (hquote name)).append h.colon).append (isAscii_writeAt h (level + 1) v)).append
      (isAscii_writeFields h (level + 1) rest)).append (style.isAscii_lineBreak _)).append
      (by decide)

private theorem isAscii_writeItems (h : style.WritesAscii) (level : Nat) (items : List Json) :
    (writeItems style level items).IsAscii := by
  match items with
  | [] => exact nofun
  | v :: rest =>
    exact ((h.separator.append (style.isAscii_lineBreak _)).append
      (isAscii_writeAt h level v)).append (isAscii_writeItems h level rest)

private theorem isAscii_writeFields (h : style.WritesAscii) (level : Nat)
    (fields : List (Text × Json)) :
    (writeFields style level fields).IsAscii := by
  have hquote : ∀ t, (quote style.asciiOnly t).IsAscii := by
    rw [h.asciiOnly]
    exact isAscii_quote
  match fields with
  | [] => exact nofun
  | (name, v) :: rest =>
    exact ((((h.separator.append (style.isAscii_lineBreak _)).append (hquote name)).append
      h.colon).append (isAscii_writeAt h level v)).append (isAscii_writeFields h level rest)

end

/-- A value is written in ASCII by a style of that kind. -/
theorem isAscii_write (h : style.WritesAscii) (v : Json) : (write style v).IsAscii :=
  isAscii_writeAt h 0 v

end Values

end Json

end ApiTools
