import ApiTools.Proofs.AsciiTexts
import ApiTools.Proofs.WritableDocuments

/-!
# Texts without surrogates

The characters of strings are no surrogates, and texts without them are joined to such texts and
replaced by such texts. What cannot be shown is written by number in a literal, so the literal of a
text can be shown whatever the text is (`Literal.isShown_text`), and the literal of any value holds
no surrogate (`Literal.isClean_value`), since surrogates cannot be shown.
-/

namespace ApiTools

/-- No surrogate can be shown. -/
theorem CodePoint.isSurrogate_of_isPrintable {c : CodePoint} (h : c.isPrintable = true) :
    c.isSurrogate = false := by
  have hranges : ∀ r ∈ printableRanges, r.2 < 0xD800 ∨ 0xE000 ≤ r.1 := by decide +kernel
  obtain ⟨r, hr, hfirst, hlast⟩ := exists_of_within h
  have hbounds := hranges r hr
  exact isSurrogate_eq_false_iff.mpr (by omega)

namespace Text

variable {t sep new : Text}

/-- The characters of a string are no surrogates. -/
theorem isClean_ofString (s : String) : IsClean (ofString s) := by
  intro c hc
  obtain ⟨d, -, rfl⟩ := List.mem_map.mp hc
  have hvalid : d.val.toNat < 55296 ∨ 57343 < d.val.toNat ∧ d.val.toNat < 1114112 := d.valid
  have hval : (CodePoint.ofChar d).val = d.val.toNat := rfl
  exact CodePoint.isSurrogate_eq_false_iff.mpr (by omega)

/-- What the elements of a list are turned into holds no surrogate together exactly if each part
holds none. -/
theorem isClean_flatMap_iff {α : Type} {f : α → Text} {l : List α} :
    IsClean (l.flatMap f) ↔ ∀ a ∈ l, (f a).IsClean :=
  List.forall_mem_flatMap

/-- Texts without surrogates, one for each element of a list, hold none together. -/
theorem isClean_flatMap {α : Type} {f : α → Text} (hf : ∀ a, (f a).IsClean) (l : List α) :
    IsClean (l.flatMap f) :=
  isClean_flatMap_iff.mpr fun a _ ↦ hf a

/-- What all code points of some texts and of the separator are, all of the texts together are. -/
theorem forall_mem_join {p : CodePoint → Prop} (hsep : ∀ c ∈ sep, p c) {ts : List Text}
    (hts : ∀ t ∈ ts, ∀ c ∈ t, p c) : ∀ c ∈ join sep ts, p c := by
  induction ts with
  | nil => exact nofun
  | cons t rest ih =>
    obtain ⟨ht, hrest⟩ := List.forall_mem_cons.mp hts
    cases rest with
    | nil => rwa [join, List.intercalate_singleton]
    | cons u rest =>
      rw [join, List.intercalate_cons_cons, List.forall_mem_append, List.forall_mem_append]
      exact ⟨⟨ht, hsep⟩, ih hrest⟩

/-- Texts without surrogates are joined to one without. -/
theorem isClean_join (hsep : sep.IsClean) {ts : List Text} (hts : ∀ t ∈ ts, t.IsClean) :
    (join sep ts).IsClean :=
  forall_mem_join hsep hts

private theorem isClean_replaceFrom (old : Text) (hnew : new.IsClean) (skip : Nat)
    (ht : t.IsClean) :
    (replaceFrom old new skip t).IsClean := by
  induction t generalizing skip with
  | nil => cases skip <;> exact nofun
  | cons c t ih =>
    obtain ⟨hc, ht⟩ := List.forall_mem_cons.mp ht
    cases skip with
    | succ skip => exact ih skip ht
    | zero =>
      rw [replaceFrom]
      split
      · exact isClean_append_iff.mpr ⟨hnew, ih _ ht⟩
      · exact List.forall_mem_cons.mpr ⟨hc, ih 0 ht⟩

/-- A text without surrogates stays one when a part is replaced by such a text. -/
theorem isClean_replace (ht : t.IsClean) (old : Text) (hnew : new.IsClean) :
    (t.replace old new).IsClean :=
  isClean_replaceFrom old hnew 0 ht

/-- A text can be shown as it is. -/
def IsShown (t : Text) : Prop := ∀ c ∈ t, c.isPrintable = true

instance (t : Text) : Decidable t.IsShown := inferInstanceAs (Decidable (∀ c ∈ t, _))

/-- No surrogate can be shown. -/
theorem IsShown.isClean (h : t.IsShown) : t.IsClean := fun c hc ↦
  CodePoint.isSurrogate_of_isPrintable (h c hc)

/-- No line end can be shown. -/
theorem IsShown.notMem_newline (h : t.IsShown) : CodePoint.ofChar '\n' ∉ t := fun hmem ↦
  absurd (h _ hmem) (by decide +kernel)

/-- The texts of ASCII without control codes can be shown. -/
theorem isShown_of_ascii (h : ∀ c ∈ t, 0x20 ≤ c.val ∧ c.val < 0x7F) : t.IsShown := by
  have hranges : ∃ rest, CodePoint.printableRanges = (0x20, 0x7E) :: rest := ⟨_, rfl⟩
  obtain ⟨rest, hranges⟩ := hranges
  intro c hc
  have hval := h c hc
  rw [CodePoint.isPrintable, hranges, CodePoint.within, Bool.and_eq_true, Bool.or_eq_true,
    decide_eq_true_eq, decide_eq_true_eq]
  omega

/-- A string of ASCII without control codes can be shown. -/
theorem isShown_ofString {cs : List Char} (h : ∀ n ∈ cs.map Char.toNat, 0x20 ≤ n ∧ n < 0x7F) :
    (ofString (String.ofList cs)).IsShown :=
  isShown_of_ascii (forall_mem_ofString.mpr (List.forall_mem_map.mp h))

/-- Two texts can be shown together if each of them can. -/
theorem isShown_append_iff {u : Text} : (t ++ u).IsShown ↔ t.IsShown ∧ u.IsShown :=
  List.forall_mem_append

/-- Texts can be shown together if each of them can. -/
theorem isShown_join (hsep : sep.IsShown) {ts : List Text} (hts : ∀ t ∈ ts, t.IsShown) :
    (join sep ts).IsShown :=
  forall_mem_join hsep hts

/-- Hexadecimal digits can be shown. -/
theorem isShown_hexDigits (width n : Nat) : (hexDigits width n).IsShown := by
  have hdigits : ∀ k < 16, (CodePoint.ofChar (Nat.digitChar k)).isPrintable = true := by
    decide +kernel
  induction width generalizing n with
  | zero => exact nofun
  | succ width ih =>
    exact isShown_append_iff.mpr
      ⟨ih (n / 16), List.forall_mem_singleton.mpr (hdigits _ (Nat.mod_lt n (by decide)))⟩

end Text

namespace Literal

open Text (IsClean IsShown isClean_append_iff isShown_append_iff isShown_hexDigits)

private theorem isShown_numericEscape (n : Nat) : (numericEscape n).IsShown := by
  unfold numericEscape
  split
  · exact isShown_append_iff.mpr ⟨by decide +kernel, isShown_hexDigits _ _⟩
  split
  · exact isShown_append_iff.mpr ⟨by decide +kernel, isShown_hexDigits _ _⟩
  · exact isShown_append_iff.mpr ⟨by decide +kernel, isShown_hexDigits _ _⟩

private theorem isShown_escape {mark : CodePoint} (hmark : mark.isPrintable = true)
    (c : CodePoint) : (escape mark c).IsShown := by
  unfold escape
  split
  · next h =>
    have hc : c.isPrintable = true := by
      rcases h with rfl | rfl
      · exact hmark
      · decide +kernel
    exact List.forall_mem_cons.mpr ⟨by decide +kernel, List.forall_mem_singleton.mpr hc⟩
  -- The short escapes stand first, one `if` for each of them.
  iterate 3
    split
    · decide +kernel
  split
  · next h => exact List.forall_mem_singleton.mpr h
  · exact isShown_numericEscape _

/-- The literal of a text can be shown. -/
theorem isShown_text (t : Text) : (text t).IsShown := by
  have hmark : (quoteMark t).isPrintable = true := by
    unfold quoteMark
    split <;> decide +kernel
  have hbody : IsShown (t.flatMap (escape (quoteMark t))) :=
    List.forall_mem_flatMap.mpr fun c _ ↦ isShown_escape hmark c
  rw [text]
  refine isShown_append_iff.mpr ⟨List.forall_mem_cons.mpr ⟨hmark, hbody⟩, ?_⟩
  exact List.forall_mem_singleton.mpr hmark

/-- The literal of a text holds no surrogate. -/
theorem isClean_text (t : Text) : (text t).IsClean := (isShown_text t).isClean

mutual

/-- The literal of a value holds no surrogate. -/
theorem isClean_value : ∀ v : Value Bytes, (value v).IsClean
  | .null => (by decide : IsClean "None")
  | .bool true => (by decide : IsClean "True")
  | .bool false => (by decide : IsClean "False")
  | .int i => (Text.isAscii_ofInt i).isClean
  | .float x => (Double.isAscii_render (by decide) (by decide) x).isClean
  | .string t => isClean_text t
  | .array [] => (by decide : IsClean "[]")
  | .array (v :: rest) => by
    have hopen : IsClean "[" := by decide
    have hclose : IsClean "]" := by decide
    simp only [value, isClean_append_iff, hopen, hclose, isClean_value v, isClean_moreItems rest,
      and_self]
  | .object [] => (by decide : IsClean "\x7b\x7d")
  | .object ((name, v) :: rest) => by
    have hopen : IsClean "\x7b" := by decide
    have hcolon : IsClean ": " := by decide
    have hclose : IsClean "\x7d" := by decide
    simp only [value, isClean_append_iff, hopen, hcolon, hclose, isClean_text, isClean_value v,
      isClean_moreFields rest, and_self]
  | .other bs => (isAscii_bytes bs).isClean

private theorem isClean_moreItems : ∀ items : List (Value Bytes), (moreItems items).IsClean
  | [] => nofun
  | v :: rest => by
    have hcomma : IsClean ", " := by decide
    simp only [moreItems, isClean_append_iff, hcomma, isClean_value v, isClean_moreItems rest,
      and_self]

private theorem isClean_moreFields :
    ∀ fields : List (Text × Value Bytes), (moreFields fields).IsClean
  | [] => nofun
  | (name, v) :: rest => by
    have hcomma : IsClean ", " := by decide
    have hcolon : IsClean ": " := by decide
    simp only [moreFields, isClean_append_iff, hcomma, hcolon, isClean_text, isClean_value v,
      isClean_moreFields rest, and_self]

end

end Literal

end ApiTools
