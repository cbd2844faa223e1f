import Mathlib.Algebra.Group.Nat.Defs
import ApiTools.Literal.Basic
import ApiTools.Literal.Reader

/-!
# Reading the literals of texts

A text is read back from its literal, whatever stands behind it but a quote (`text?_text`). Its
content ends at the closing quote, since quotes and backslashes in it are escaped
(`content?_escaped`), and what was escaped is put back (`unescape?_escaped`).
-/

namespace ApiTools

namespace Literal

/-! ### Contents -/

section Content

variable {mark x rest : Text} {c : CodePoint}

/-- The content ends where the quotes stand. -/
theorem content?_mark (hmark : mark ≠ []) (behind : Text) :
    content? mark (mark ++ behind) = some ([], behind) := by
  cases mark with
  | nil => exact absurd rfl hmark
  | cons q qs =>
    have hstart : Text.startsWith (q :: (qs ++ behind)) (q :: qs) = true := by
      rw [Text.startsWith, List.isPrefixOf_iff_prefix]
      exact List.prefix_append (q :: qs) behind
    rw [List.cons_append, content?.eq_def]
    simp [hstart]

/-- A code point that belongs to a content in some quotes as it is. -/
structure Inside (mark : Text) (c : CodePoint) : Prop where
  notMem : c ∉ mark
  slash : c ≠ '\\'
  line : mark.length = 1 → c ≠ '\n' ∧ c ≠ '\r'

private theorem startsWith_of_ne {q : CodePoint} (hq : q ≠ c) (qs rest : Text) :
    Text.startsWith (c :: rest) (q :: qs) = false := by
  rw [Text.startsWith, List.isPrefixOf_cons_cons, beq_eq_false_iff_ne.mpr hq, Bool.false_and]

private theorem startsWith_of_notMem (hmark : mark ≠ []) (hc : c ∉ mark) (rest : Text) :
    Text.startsWith (c :: rest) mark = false := by
  cases mark with
  | nil => exact absurd rfl hmark
  | cons q qs =>
    have hq : q ≠ c := fun h ↦ hc (h ▸ List.mem_cons_self)
    exact startsWith_of_ne hq qs rest

/-- A code point that neither starts the quotes nor is a backslash or a line end belongs to the
content. -/
theorem content?_cons (hstart : Text.startsWith (c :: rest) mark = false) (hslash : c ≠ '\\')
    (hline : mark.length = 1 → c ≠ '\n' ∧ c ≠ '\r') :
    content? mark (c :: rest) = (content? mark rest).map fun r ↦ (c :: r.1, r.2) := by
  have hends : ¬(mark.length = 1 ∧ (c = '\n' ∨ c = '\r')) := by
    rintro ⟨hone, rfl | rfl⟩
    · exact (hline hone).1 rfl
    · exact (hline hone).2 rfl
  rw [content?.eq_def]
  simp only [hstart, hslash, hends, Bool.false_eq_true, ↓reduceIte]

/-- A backslash belongs to the content with the code point behind it. -/
theorem content?_escape (hmark : mark ≠ []) (hslash : CodePoint.ofChar '\\' ∉ mark) :
    content? mark (CodePoint.ofChar '\\' :: c :: rest) =
      (content? mark rest).map fun r ↦ (CodePoint.ofChar '\\' :: c :: r.1, r.2) := by
  rw [content?.eq_def]
  simp [startsWith_of_notMem hmark hslash]

/-- Code points that belong to a content as they are belong to it before any other content. -/
theorem content?_append (hmark : mark ≠ []) (hx : ∀ d ∈ x, Inside mark d) :
    content? mark (x ++ rest) = (content? mark rest).map fun r ↦ (x ++ r.1, r.2) := by
  induction x with
  | nil => simp
  | cons d y ih =>
    have hd := hx d List.mem_cons_self
    rw [List.cons_append, content?_cons (startsWith_of_notMem hmark hd.notMem _) hd.slash hd.line,
      ih fun e he ↦ hx e (List.mem_cons_of_mem d he), Option.map_map]
    rfl

end Content

/-! ### Numbers in escapes -/

section Hexadecimal

/-- A number has as many hexadecimal digits as are asked for. -/
theorem length_hexDigits (width n : Nat) : (Text.hexDigits width n).length = width := by
  induction width generalizing n with
  | zero => rfl
  | succ width ih => rw [Text.hexDigits, List.length_append, ih, List.length_singleton]

/-- Hexadecimal digits belong to every content. -/
theorem inside_of_mem_hexDigits {mark : Text} (hmark : ∀ d ∈ mark, isQuote d = true)
    {width n : Nat} {c : CodePoint} (hc : c ∈ Text.hexDigits width n) : Inside mark c := by
  have hdigits : ∀ k < 16, isQuote (CodePoint.ofChar (Nat.digitChar k)) = false ∧
      CodePoint.ofChar (Nat.digitChar k) ≠ '\\' ∧ CodePoint.ofChar (Nat.digitChar k) ≠ '\n' ∧
      CodePoint.ofChar (Nat.digitChar k) ≠ '\r' := by decide
  induction width generalizing n with
  | zero => cases hc
  | succ width ih =>
    rcases List.mem_append.mp hc with hc | hc
    · exact ih hc
    · rw [List.mem_singleton.mp hc]
      obtain ⟨hquote, hslash, hline⟩ := hdigits (n % 16) (Nat.mod_lt n (by decide))
      refine ⟨fun hmem ↦ ?_, hslash, fun _ ↦ hline⟩
      rw [hmark _ hmem] at hquote
      cases hquote

/-- The lowest hexadecimal digits of a number are read as what they tell of it. -/
theorem hexNumber?_hexDigits (width n : Nat) :
    hexNumber? (Text.hexDigits width n) = some (n % 16 ^ width) := by
  induction width generalizing n with
  | zero => simp [Text.hexDigits, hexNumber?, Nat.mod_one]
  | succ width ih =>
    have hdigits : ∀ k < 16, (CodePoint.ofChar (Nat.digitChar k)).hexValue? = some k := by decide
    have hread := ih (n / 16)
    rw [hexNumber?] at hread
    rw [hexNumber?, Text.hexDigits, List.foldlM_append, hread]
    simp only [bind, Option.bind, List.foldlM, hdigits (n % 16) (Nat.mod_lt n (by decide)),
      Option.map_some, pure]
    rw [Nat.pow_succ, Nat.mul_comm (16 ^ width), Nat.mod_mul, Nat.add_comm]

private theorem numbered?_hexDigits (width : Nat) (c : CodePoint) (hc : c.val < 16 ^ width)
    (u : Text) :
    numbered? width (Text.hexDigits width c.val ++ u) = some ([c], width + 1) := by
  have hlength := length_hexDigits width c.val
  have hlong : ¬(Text.hexDigits width c.val ++ u).length < width := by
    rw [List.length_append]
    omega
  have htake : (Text.hexDigits width c.val ++ u).take width = Text.hexDigits width c.val := by
    rw [List.take_append_of_le_length (by omega), List.take_of_length_le (by omega)]
  rw [numbered?, if_neg hlong, htake, hexNumber?_hexDigits, Nat.mod_eq_of_lt hc]
  simp [CodePoint.ofNat?, c.lt]

end Hexadecimal

/-! ### Escapes -/

section Escapes

variable {mark c : CodePoint}

/-- An escape by number is a backslash, a letter and hexadecimal digits, and is read as the code
point of the number. -/
theorem numericEscape_spec (c : CodePoint) :
    ∃ letter width, numericEscape c.val =
        CodePoint.ofChar '\\' :: letter :: Text.hexDigits width c.val ∧
      ∀ u, escaped? (letter :: (Text.hexDigits width c.val ++ u)) = some ([c], width + 1) := by
  unfold numericEscape
  split
  · next hsmall =>
    exact ⟨'x', 2, rfl, numbered?_hexDigits 2 c hsmall⟩
  · split
    · next hmiddle =>
      exact ⟨'u', 4, rfl, numbered?_hexDigits 4 c hmiddle⟩
    · have hlarge : c.val < 16 ^ 8 := Nat.lt_trans c.lt (by decide)
      exact ⟨'U', 8, rfl, numbered?_hexDigits 8 c hlarge⟩

/-- A code point is written with a backslash, and then read as what it was, or as it is. -/
theorem escape_cases (hmark : isQuote mark = true) (c : CodePoint) :
    (∃ letter more, escape mark c = CodePoint.ofChar '\\' :: letter :: more ∧
      (∀ d ∈ more, Inside [mark] d) ∧
      ∀ u, escaped? (letter :: (more ++ u)) = some ([c], more.length + 1)) ∨
    (escape mark c = [c] ∧ Inside [mark] c) := by
  unfold escape
  split
  · next h =>
    refine .inl ⟨c, [], rfl, nofun, fun u ↦ ?_⟩
    have hline : c ≠ '\n' := by
      rintro rfl
      rcases h with rfl | h
      · cases hmark
      · cases h
    have hquote : c = '\\' ∨ isQuote c = true := by
      rcases h with rfl | h
      · exact .inr hmark
      · exact .inl h
    simp only [escaped?, hline, hquote, ↓reduceIte, List.length_nil]
  next hquote =>
  split
  · next h => exact .inl ⟨'t', [], rfl, nofun, fun u ↦ by rw [h]; rfl⟩
  split
  · next h => exact .inl ⟨'n', [], rfl, nofun, fun u ↦ by rw [h]; rfl⟩
  next hline =>
  split
  · next h => exact .inl ⟨'r', [], rfl, nofun, fun u ↦ by rw [h]; rfl⟩
  next hreturn =>
  split
  · refine .inr ⟨rfl, ?_, fun h ↦ hquote (.inr h), fun _ ↦ ⟨hline, hreturn⟩⟩
    exact fun hmem ↦ hquote (.inl (List.mem_singleton.mp hmem))
  · obtain ⟨letter, width, htext, hread⟩ := numericEscape_spec c
    have hdigits : ∀ d ∈ ([mark] : Text), isQuote d = true := by
      simp [hmark]
    refine .inl ⟨letter, _, htext, fun d hd ↦ inside_of_mem_hexDigits hdigits hd, fun u ↦ ?_⟩
    rw [hread, length_hexDigits]

/-- The content of a literal ends at its closing quote. -/
theorem content?_escaped (hmark : isQuote mark = true) (t rest : Text) :
    content? [mark] (t.flatMap (escape mark) ++ mark :: rest) =
      some (t.flatMap (escape mark), rest) := by
  have hslash : CodePoint.ofChar '\\' ∉ ([mark] : Text) := by
    intro hmem
    rw [← List.mem_singleton.mp hmem] at hmark
    cases hmark
  have hne : ([mark] : Text) ≠ [] := List.cons_ne_nil mark []
  induction t with
  | nil => exact content?_mark hne rest
  | cons c t ih =>
    rw [List.flatMap_cons, List.append_assoc]
    rcases escape_cases hmark c with ⟨letter, more, htext, hmore, -⟩ | ⟨htext, hinside⟩
    · rw [htext, List.cons_append, List.cons_append, content?_escape hne hslash,
        content?_append hne hmore, ih]
      rfl
    · rw [htext, content?_append hne (by simpa using hinside), ih]
      rfl

private theorem unescapeFrom?_append (part u : Text) :
    unescapeFrom? part.length (part ++ u) = unescapeFrom? 0 u := by
  induction part with
  | nil => rfl
  | cons d part ih => exact ih

/-- What was escaped is put back. -/
theorem unescape?_escaped (hmark : isQuote mark = true) (t : Text) :
    unescape? (t.flatMap (escape mark)) = some t := by
  induction t with
  | nil => rfl
  | cons c t ih =>
    rw [unescape?] at ih ⊢
    rw [List.flatMap_cons]
    rcases escape_cases hmark c with ⟨letter, more, htext, -, hread⟩ | ⟨htext, hinside⟩
    · have hskip := unescapeFrom?_append (letter :: more) (t.flatMap (escape mark))
      rw [List.length_cons, List.cons_append] at hskip
      rw [htext, List.cons_append, List.cons_append, unescapeFrom?, if_pos rfl, hread]
      dsimp only
      rw [hskip, ih]
      rfl
    · rw [htext, List.singleton_append, unescapeFrom?, if_neg hinside.slash, ih]
      rfl

end Escapes

/-! ### Texts -/

/-- A text is put in quotes. -/
theorem isQuote_quoteMark (t : Text) : isQuote (quoteMark t) = true := by
  unfold quoteMark
  split <;> rfl

/-- What stands behind a literal starts with no quote. -/
def Ended (rest : Text) : Prop := ∀ c ∈ rest.head?, isQuote c = false

/-- Only the closing quote of an empty text stands directly behind an opening one. -/
private theorem startsWith_quotes {mark : CodePoint} (hmark : isQuote mark = true) (t : Text)
    {rest : Text} (hrest : Ended rest) :
    Text.startsWith (t.flatMap (escape mark) ++ mark :: rest) [mark, mark] = false := by
  have hslash : mark ≠ '\\' := by
    rintro rfl
    cases hmark
  cases t with
  | nil =>
    cases rest with
    | nil => simp [Text.startsWith]
    | cons d rest =>
      have hd : mark ≠ d := by
        rintro rfl
        rw [hrest mark rfl] at hmark
        cases hmark
      have hsecond := startsWith_of_ne hd [] rest
      rw [Text.startsWith] at hsecond
      rw [List.flatMap_nil, List.nil_append, Text.startsWith, List.isPrefixOf_cons_cons, hsecond,
        Bool.and_false]
  | cons c t =>
    rw [List.flatMap_cons, List.append_assoc]
    rcases escape_cases hmark c with ⟨letter, more, htext, -, -⟩ | ⟨htext, hinside⟩
    · rw [htext]
      exact startsWith_of_ne hslash [mark] _
    · have hc : mark ≠ c := fun h ↦ hinside.notMem (h ▸ List.mem_cons_self)
      rw [htext]
      exact startsWith_of_ne hc [mark] _

/-- The literal of a text is its escaped content between two quotes. -/
theorem text_append (t rest : Text) : text t ++ rest =
    quoteMark t :: (t.flatMap (escape (quoteMark t)) ++ quoteMark t :: rest) := by
  simp [text]

/-- A text is read back from its literal. -/
theorem text?_text (t : Text) {rest : Text} (hrest : Ended rest) :
    text? (text t ++ rest) = some (t, rest) := by
  have hmark := isQuote_quoteMark t
  rw [text_append, text?, if_pos hmark]
  simp only [startsWith_quotes hmark t hrest, Bool.false_eq_true, ↓reduceIte, List.length_singleton,
    Nat.sub_self, List.drop_zero, content?_escaped hmark, Option.bind_some,
    unescape?_escaped hmark, Option.map_some]

end Literal

end ApiTools
