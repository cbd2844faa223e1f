import ApiTools.Proofs.DistinctNames
import ApiTools.Proofs.JsonNumbers
import ApiTools.Proofs.JsonStrings
import ApiTools.Proofs.Utf8RoundTrip

/-!
# Reading what was written

The text of a value whose whole numbers are within the limit of the reader is read in every style
that sets values apart by a comma, a colon and blanks (`exists_readsAs`). If the value has no two
fields of one name it is read back, with the order of its fields (`parse?_write`). A style that
writes ASCII alone needs texts without the halves of a surrogate pair side by side.
-/

namespace ApiTools

namespace Json

open Double (signText)
open List (Forall₂)
open Value (DistinctNames AllTexts NumbersWithin allNumbers_array_iff allNumbers_int_iff
  allNumbers_object_iff)

variable {limit : Option Nat}

/-- A style whose separators are a comma and a colon, with blanks behind them at most. -/
structure Style.IsLawful (style : Style) : Prop where
  separator : ∃ blanks, style.separator = CodePoint.ofChar ',' :: blanks ∧
    ∀ c ∈ blanks, isBlankChar c = true
  colon : ∃ blanks, style.colon = CodePoint.ofChar ':' :: blanks ∧
    ∀ c ∈ blanks, isBlankChar c = true

/-- The compact style has a comma and a colon alone. -/
theorem Style.isLawful_compact : compact.IsLawful := ⟨⟨[], rfl, nofun⟩, ⟨[], rfl, nofun⟩⟩

/-- The compact style in ASCII has a comma and a colon alone. -/
theorem Style.isLawful_compactAscii : compactAscii.IsLawful :=
  ⟨⟨[], rfl, nofun⟩, ⟨[], rfl, nofun⟩⟩

/-- The style with spaces has one behind a comma and one behind a colon. -/
theorem Style.isLawful_spaced : spaced.IsLawful :=
  ⟨⟨" ", rfl, by decide⟩, ⟨" ", rfl, by decide⟩⟩

/-- The style with indents has a space behind a colon. -/
theorem Style.isLawful_indented : indented.IsLawful := ⟨⟨[], rfl, nofun⟩, ⟨" ", rfl, by decide⟩⟩

section Blanks

variable {blanks t : Text}

/-- Blank code points are passed over. -/
theorem skip_blanks (h : ∀ c ∈ blanks, isBlankChar c = true) (t : Text) :
    skip (blanks ++ t) = skip t :=
  List.dropWhile_append_of_pos h

/-- Nothing is passed over before a code point that is not blank. -/
theorem skip_cons {c : CodePoint} (h : isBlankChar c = false) (t : Text) :
    skip (c :: t) = c :: t := by
  rw [skip, List.dropWhile_cons, h]
  rfl

private theorem Style.isBlank_lineBreak (style : Style) (level : Nat) :
    ∀ c ∈ style.lineBreak level, isBlankChar c = true := by
  intro c hc
  unfold Style.lineBreak at hc
  split at hc
  · cases hc
  · rcases List.mem_cons.mp hc with rfl | hc
    · rfl
    · rw [List.eq_of_mem_replicate hc]
      rfl

private theorem EndsNumber.blanks_append (h : ∀ c ∈ blanks, isBlankChar c = true)
    (ht : EndsNumber t) :
    EndsNumber (blanks ++ t) := by
  cases blanks with
  | nil => exact ht
  | cons c rest =>
    rintro _ ⟨⟩
    have hblank := h c List.mem_cons_self
    simp only [isBlankChar, Bool.or_eq_true, beq_iff_eq] at hblank
    rcases hblank with ((rfl | rfl) | rfl) | rfl <;> decide

end Blanks

section Scalars

variable {fuel : Nat} {t rest : Text}

/-- What starts neither a string nor an array nor an object is a word or a number. -/
theorem value?_scalar {c : CodePoint} (hquote : c ≠ '"') (harray : c ≠ '[')
    (hobject : c ≠ (CodePoint.ofChar '\x7b')) (t : Text) :
    value? limit (fuel + 1) (c :: t) = scalar? limit (c :: t) := by
  rw [value?.eq_def]
  simp only [hquote, harray, hobject, ↓reduceIte]

private theorem digit_ne {c d : CodePoint} (hc : c.isAsciiDigit = true)
    (hd : d.isAsciiDigit = false) : d ≠ c := by
  rintro rfl
  rw [hc] at hd
  cases hd

/-- The first two letters of a word are no digits. -/
private theorem words_letters : ∀ w ∈ words, ∃ d e u, w.1 = d :: e :: u ∧
    d.isAsciiDigit = false ∧ e.isAsciiDigit = false := by
  intro w hw
  simp only [words, List.mem_cons, List.not_mem_nil, or_false] at hw
  rcases hw with rfl | rfl | rfl | rfl | rfl | rfl <;> exact ⟨_, _, _, rfl, rfl, rfl⟩

/-- A sign and digits are no word. -/
theorem words_signed (negative : Bool) (ht : StartsWithDigit t) :
    (words.find? fun w ↦ Text.startsWith (signText negative ++ t ++ rest) w.1) = none := by
  obtain ⟨c, u, rfl, hc⟩ := ht
  rw [List.find?_eq_none]
  intro w hw
  obtain ⟨d, e, v, hword, hd, he⟩ := words_letters w hw
  rw [hword, Text.startsWith]
  cases negative with
  | false => simp [signText, digit_ne hc hd]
  | true => simp [signText, Text.ofString, digit_ne hc he]

/-- A number with its sign is read as a number. -/
theorem scalar?_signed (negative : Bool) (ht : StartsWithDigit t) :
    scalar? limit (signText negative ++ t ++ rest) = unsigned? limit negative (t ++ rest) := by
  rw [scalar?.eq_def, words_signed negative ht]
  obtain ⟨c, u, rfl, hc⟩ := ht
  cases negative with
  | true => rfl
  | false =>
    have hsign : c ≠ '-' := (digit_ne hc rfl).symm
    simp only [signText, Bool.false_eq_true, ↓reduceIte, List.nil_append, List.cons_append, hsign]

/-- A number with its sign starts with a character that starts nothing else. -/
theorem exists_signed (negative : Bool) (ht : StartsWithDigit t) :
    ∃ c u, signText negative ++ t = c :: u ∧ isBlankChar c = false ∧ c ≠ ']' ∧ c ≠ '"' ∧ c ≠ '[' ∧
      c ≠ CodePoint.ofChar '\x7b' := by
  obtain ⟨c, u, rfl, hc⟩ := ht
  cases negative with
  | true => exact ⟨'-', c :: u, rfl, by decide⟩
  | false =>
    have hne : ∀ d : CodePoint, d.isAsciiDigit = false → c ≠ d := fun d hd ↦ (digit_ne hc hd).symm
    refine ⟨c, u, rfl, ?_, hne _ rfl, hne _ rfl, hne _ rfl, hne _ rfl⟩
    simp only [isBlankChar, Bool.or_eq_false_iff, beq_eq_false_iff_ne]
    exact ⟨⟨⟨hne _ rfl, hne _ rfl⟩, hne _ rfl⟩, hne _ rfl⟩

/-- A number with its sign is read where a value may stand. -/
theorem value?_signed {negative : Bool} {v : Json} (ht : StartsWithDigit t)
    (hread : unsigned? limit negative (t ++ rest) = some (v, rest)) :
    value? limit (fuel + 1) (signText negative ++ t ++ rest) = some (v, rest) := by
  obtain ⟨c, u, htext, -, -, hquote, harray, hobject⟩ := exists_signed negative ht
  have hscalar := @scalar?_signed limit t rest negative ht
  rw [htext, List.cons_append] at hscalar ⊢
  rw [value?_scalar hquote harray hobject, hscalar, hread]

end Scalars

section Steps

variable {fuel : Nat} {t t₁ t₂ t₃ rest : Text} {c : CodePoint}

private theorem value?_array {vs : List Json} (hskip : skip t = c :: t₁) (hc : c ≠ ']')
    (hitems : items? limit fuel (c :: t₁) = some (vs, rest)) :
    value? limit (fuel + 1) (CodePoint.ofChar '[' :: t) = some (.array vs, rest) := by
  have hquote : CodePoint.ofChar '[' ≠ CodePoint.ofChar '"' := by decide
  rw [value?.eq_def]
  simp only [hquote, ↓reduceIte, hskip, hc, hitems, Option.map_some]

private theorem items?_last {v : Json} (hvalue : value? limit fuel t = some (v, t₁))
    (hclose : skip t₁ = CodePoint.ofChar ']' :: rest) :
    items? limit (fuel + 1) t = some ([v], rest) := by
  rw [items?, hvalue]
  simp only [bind, Option.bind, hclose, ↓reduceIte]

private theorem items?_more {v : Json} {vs : List Json}
    (hvalue : value? limit fuel t = some (v, t₁))
    (hcomma : skip t₁ = CodePoint.ofChar ',' :: t₂)
    (hitems : items? limit fuel (skip t₂) = some (vs, rest)) :
    items? limit (fuel + 1) t = some (v :: vs, rest) := by
  have hne : CodePoint.ofChar ',' ≠ CodePoint.ofChar ']' := by decide
  rw [items?, hvalue]
  simp only [bind, Option.bind, hcomma, hne, ↓reduceIte, hitems, pure]

private theorem value?_object {fs : Fields Json} (hskip : skip t = c :: t₁)
    (hc : c ≠ CodePoint.ofChar '\x7d')
    (hmembers : members? limit fuel (c :: t₁) = some (fs, rest)) :
    value? limit (fuel + 1) (CodePoint.ofChar '\x7b' :: t) =
      some (.object (Fields.ofList fs), rest) := by
  have hquote : CodePoint.ofChar '\x7b' ≠ CodePoint.ofChar '"' := by decide
  have hbracket : CodePoint.ofChar '\x7b' ≠ CodePoint.ofChar '[' := by decide
  rw [value?.eq_def]
  simp only [hquote, hbracket, ↓reduceIte, hskip, hc, hmembers, Option.map_some]

/-- A string is read as another one from its text, up to its closing quote. -/
def TextReadsAs (asciiOnly : Bool) (t u : Text) : Prop :=
  ∀ rest, stringBody? (t.flatMap (escape asciiOnly) ++ CodePoint.ofChar '"' :: rest) =
    some (u, rest)

/-- A string is read from its text behind the opening quote. -/
theorem stringBody?_quoted {asciiOnly : Bool} {t u : Text} (h : TextReadsAs asciiOnly t u)
    (rest : Text) : ∃ body, quote asciiOnly t ++ rest = CodePoint.ofChar '"' :: body ∧
      stringBody? body = some (u, rest) := by
  refine ⟨t.flatMap (escape asciiOnly) ++ CodePoint.ofChar '"' :: rest, ?_, h rest⟩
  rw [quote, List.append_assoc, List.append_assoc]
  rfl

variable {asciiOnly : Bool} {name other : Text} {v : Json}

private theorem members?_last (hname : TextReadsAs asciiOnly name other)
    (hcolon : skip t = CodePoint.ofChar ':' :: t₁)
    (hvalue : value? limit fuel (skip t₁) = some (v, t₂))
    (hclose : skip t₂ = CodePoint.ofChar '\x7d' :: rest) :
    members? limit (fuel + 1) (quote asciiOnly name ++ t) = some ([(other, v)], rest) := by
  obtain ⟨body, hquote, hbody⟩ := stringBody?_quoted hname t
  rw [hquote, members?.eq_def]
  simp only [↓reduceIte, bind, Option.bind, hbody, hcolon, hvalue, hclose]

private theorem members?_more {fs : Fields Json} (hname : TextReadsAs asciiOnly name other)
    (hcolon : skip t = CodePoint.ofChar ':' :: t₁)
    (hvalue : value? limit fuel (skip t₁) = some (v, t₂))
    (hcomma : skip t₂ = CodePoint.ofChar ',' :: t₃)
    (hmembers : members? limit fuel (skip t₃) = some (fs, rest)) :
    members? limit (fuel + 1) (quote asciiOnly name ++ t) = some ((other, v) :: fs, rest) := by
  obtain ⟨body, hquote, hbody⟩ := stringBody?_quoted hname t
  have hne : CodePoint.ofChar ',' ≠ CodePoint.ofChar '\x7d' := by decide
  rw [hquote, members?.eq_def]
  simp only [↓reduceIte, bind, Option.bind, hbody, hcolon, hvalue, hcomma, hne, hmembers, pure]

end Steps

section Containers

variable {style : Style} {level fuel : Nat} {rest : Text}

/-- The text of a value starts with a character that neither is a blank nor closes an array. -/
theorem exists_writeAt (style : Style) (level : Nat) (v : Json) :
    ∃ c t, writeAt style level v = c :: t ∧ isBlankChar c = false ∧ c ≠ ']' := by
  match v with
  | .null => exact ⟨_, _, rfl, by decide⟩
  | .bool true => exact ⟨_, _, rfl, by decide⟩
  | .bool false => exact ⟨_, _, rfl, by decide⟩
  | .int i =>
    obtain ⟨t, htext, hstart, -⟩ := @exists_ofInt none i
    obtain ⟨c, u, hsigned, hblank, hclose, -⟩ := exists_signed (decide (i < 0)) hstart
    exact ⟨c, u, htext.trans hsigned, hblank, hclose⟩
  | .float .nan => exact ⟨_, _, rfl, by decide⟩
  | .float (.infinite true) => exact ⟨_, _, rfl, by decide⟩
  | .float (.infinite false) => exact ⟨_, _, rfl, by decide⟩
  | .float (.finite negative e f) =>
    obtain ⟨t, htext, hstart, -⟩ := @exists_render none Double.jsonLayout negative e f
    obtain ⟨c, u, hsigned, hblank, hclose, -⟩ := exists_signed negative hstart
    exact ⟨c, u, htext.trans hsigned, hblank, hclose⟩
  | .string _ => exact ⟨_, _, rfl, by decide⟩
  | .array [] => exact ⟨_, _, rfl, by decide⟩
  | .array (_ :: _) => exact ⟨_, _, by simp only [writeAt, List.append_assoc]; rfl, by decide⟩
  | .object [] => exact ⟨_, _, rfl, by decide⟩
  | .object (_ :: _) => exact ⟨_, _, by simp only [writeAt, List.append_assoc]; rfl, by decide⟩

/-- A value is found behind blanks. -/
theorem skip_writeAt {blanks : Text} (h : ∀ c ∈ blanks, isBlankChar c = true) (v : Json) :
    skip (blanks ++ (writeAt style level v ++ rest)) = writeAt style level v ++ rest := by
  obtain ⟨c, t, htext, hblank, -⟩ := exists_writeAt style level v
  rw [skip_blanks h, htext, List.cons_append, skip_cons hblank]

/-- A name is found behind blanks. -/
theorem skip_quote {blanks : Text} (h : ∀ c ∈ blanks, isBlankChar c = true) (asciiOnly : Bool)
    (name : Text) :
    skip (blanks ++ (quote asciiOnly name ++ rest)) = quote asciiOnly name ++ rest := by
  rw [skip_blanks h, quote, List.append_assoc, List.append_assoc]
  exact skip_cons rfl _

/-- A value is read as another one from its text at any level, up to anything that cannot continue a
number. -/
def ReadsAs (limit : Option Nat) (style : Style) (v w : Json) : Prop :=
  ∀ level fuel rest, (writeAt style level v).length < fuel → EndsNumber rest →
    value? limit fuel (writeAt style level v ++ rest) = some (w, rest)

/-- A field is read as another one from its text. -/
def FieldReadsAs (limit : Option Nat) (style : Style) (f g : Text × Json) : Prop :=
  TextReadsAs style.asciiOnly f.1 g.1 ∧ ReadsAs limit style f.2 g.2

variable {blanks : Text}

/-- The items of an array are read from their texts. -/
theorem items?_written (hlaw : style.IsLawful) {v w : Json} {vs ws : List Json}
    (hfirst : ReadsAs limit style v w) (h : Forall₂ (ReadsAs limit style) vs ws)
    (hblanks : ∀ c ∈ blanks, isBlankChar c = true)
    (hfuel : (writeAt style level v).length + (writeItems style level vs).length + 1 < fuel) :
    items? limit fuel (writeAt style level v ++ (writeItems style level vs ++
      (blanks ++ CodePoint.ofChar ']' :: rest))) = some (w :: ws, rest) := by
  obtain ⟨gap, hseparator, hgap⟩ := hlaw.separator
  have hblank : ∀ c ∈ gap ++ style.lineBreak level, isBlankChar c = true := fun c hc ↦
    (List.mem_append.mp hc).elim (hgap c) (style.isBlank_lineBreak level c)
  induction h generalizing v w fuel with
  | nil =>
    obtain ⟨fuel, rfl⟩ : ∃ n, fuel = n + 1 := ⟨fuel - 1, by omega⟩
    have hends : EndsNumber (blanks ++ CodePoint.ofChar ']' :: rest) :=
      .blanks_append hblanks (by rintro c ⟨⟩; decide)
    rw [writeItems, List.nil_append]
    refine items?_last (hfirst level fuel _ (by omega) hends) ?_
    rw [skip_blanks hblanks, skip_cons rfl]
  | @cons x y xs ys hnext _ ih =>
    obtain ⟨fuel, rfl⟩ : ∃ n, fuel = n + 1 := ⟨fuel - 1, by omega⟩
    have hbehind : writeItems style level (x :: xs) ++ (blanks ++ CodePoint.ofChar ']' :: rest) =
        CodePoint.ofChar ',' :: (gap ++ style.lineBreak level ++ (writeAt style level x ++
          (writeItems style level xs ++ (blanks ++ CodePoint.ofChar ']' :: rest)))) := by
      simp only [writeItems, hseparator, List.append_assoc, List.cons_append]
    simp only [writeItems, hseparator, List.length_append, List.length_cons] at hfuel
    rw [hbehind]
    refine items?_more (hfirst level fuel _ (by omega) (by rintro c ⟨⟩; decide))
      (skip_cons rfl _) ?_
    rw [skip_writeAt hblank]
    exact ih hnext (by omega)

/-- The fields of an object are read from their texts. -/
theorem members?_written (hlaw : style.IsLawful) {f g : Text × Json} {fs gs : Fields Json}
    (hfirst : FieldReadsAs limit style f g) (h : Forall₂ (FieldReadsAs limit style) fs gs)
    (hblanks : ∀ c ∈ blanks, isBlankChar c = true)
    (hfuel : (writeAt style level f.2).length + (writeFields style level fs).length + 1 < fuel) :
    members? limit fuel (quote style.asciiOnly f.1 ++ (style.colon ++ (writeAt style level f.2 ++
      (writeFields style level fs ++ (blanks ++ CodePoint.ofChar '\x7d' :: rest))))) =
      some (g :: gs, rest) := by
  obtain ⟨gap, hseparator, hgap⟩ := hlaw.separator
  obtain ⟨space, hcolon, hspace⟩ := hlaw.colon
  have hblank : ∀ c ∈ gap ++ style.lineBreak level, isBlankChar c = true := fun c hc ↦
    (List.mem_append.mp hc).elim (hgap c) (style.isBlank_lineBreak level c)
  have hskip : ∀ t, skip (style.colon ++ t) = CodePoint.ofChar ':' :: (space ++ t) := fun t ↦ by
    rw [hcolon]
    exact skip_cons rfl _
  induction h generalizing f g fuel with
  | nil =>
    obtain ⟨fuel, rfl⟩ : ∃ n, fuel = n + 1 := ⟨fuel - 1, by omega⟩
    have hends : EndsNumber (blanks ++ CodePoint.ofChar '\x7d' :: rest) :=
      .blanks_append hblanks (by rintro c ⟨⟩; decide)
    have hread := hfirst.2 level fuel _ (by omega) hends
    have hclose : skip (blanks ++ CodePoint.ofChar '\x7d' :: rest) =
        CodePoint.ofChar '\x7d' :: rest := by
      rw [skip_blanks hblanks, skip_cons rfl]
    refine members?_last hfirst.1 (hskip _) ?_ hclose
    rw [skip_writeAt hspace]
    exact hread
  | @cons x y xs ys hnext _ ih =>
    obtain ⟨fuel, rfl⟩ : ∃ n, fuel = n + 1 := ⟨fuel - 1, by omega⟩
    have hbehind : writeFields style level (x :: xs) ++
        (blanks ++ CodePoint.ofChar '\x7d' :: rest) =
        CodePoint.ofChar ',' :: (gap ++ style.lineBreak level ++ (quote style.asciiOnly x.1 ++
          (style.colon ++ (writeAt style level x.2 ++ (writeFields style level xs ++
            (blanks ++ CodePoint.ofChar '\x7d' :: rest)))))) := by
      simp only [writeFields, hseparator, List.append_assoc, List.cons_append]
    simp only [writeFields, hseparator, List.length_append, List.length_cons] at hfuel
    have hread : ∀ behind,
        value? limit fuel
            (skip (space ++ (writeAt style level f.2 ++ CodePoint.ofChar ',' :: behind))) =
          some (g.2, CodePoint.ofChar ',' :: behind) := fun behind ↦ by
      rw [skip_writeAt hspace]
      exact hfirst.2 level fuel _ (by omega) (by rintro c ⟨⟩; decide)
    rw [hbehind]
    refine members?_more hfirst.1 (hskip _) (hread _) (skip_cons rfl _) ?_
    rw [skip_quote hblank]
    exact ih hnext (by omega)

end Containers

section Values

variable {style : Style}

/-- Reading a value takes a first step. -/
theorem ReadsAs.of_step {v w : Json}
    (h : ∀ level fuel rest, (writeAt style level v).length ≤ fuel → EndsNumber rest →
      value? limit (fuel + 1) (writeAt style level v ++ rest) = some (w, rest)) :
    ReadsAs limit style v w := by
  intro level fuel rest hfuel hrest
  obtain ⟨fuel, rfl⟩ := Nat.exists_eq_add_one.mpr (Nat.zero_lt_of_lt hfuel)
  exact h level fuel rest (Nat.le_of_lt_succ hfuel) hrest

/-- Null is read back. -/
theorem ReadsAs.null : ReadsAs limit style .null .null := .of_step fun _ _ _ _ _ ↦ rfl

/-- A truth value is read back. -/
theorem ReadsAs.bool (b : Bool) : ReadsAs limit style (.bool b) (.bool b) := by
  refine .of_step fun _ _ _ _ _ ↦ ?_
  cases b <;> rfl

/-- A whole number that is short enough is read back. -/
theorem ReadsAs.int {i : Int} (hwithin : Text.isWithin limit (Text.ofNat i.natAbs) = true) :
    ReadsAs limit style (.int i) (.int i) := by
  refine .of_step fun _ _ rest _ hrest ↦ ?_
  obtain ⟨t, htext, hstart, hread⟩ := exists_ofInt i
  rw [writeAt, htext, value?_signed hstart (hread hwithin rest hrest)]

/-- A double is read back. -/
theorem ReadsAs.float (x : Double) : ReadsAs limit style (.float x) (.float x) := by
  refine .of_step fun _ _ rest _ hrest ↦ ?_
  match x with
  | .nan => rfl
  | .infinite true => rfl
  | .infinite false => rfl
  | .finite negative e f =>
    obtain ⟨t, htext, hstart, hread⟩ := exists_render Double.jsonLayout negative e f
    rw [writeAt, htext, value?_signed hstart (hread rest hrest)]

/-- A text is read as what its quoted form is read as. -/
theorem ReadsAs.string {t u : Text} (h : TextReadsAs style.asciiOnly t u) :
    ReadsAs limit style (.string t) (.string u) := by
  refine .of_step fun _ _ rest _ _ ↦ ?_
  obtain ⟨body, hquote, hbody⟩ := stringBody?_quoted h rest
  rw [writeAt, hquote, value?.eq_def]
  simp only [↓reduceIte, hbody, Option.map_some]

/-- A list is read as the list of what its items are read as. -/
theorem ReadsAs.array (hlaw : style.IsLawful) {items others : List Json}
    (h : Forall₂ (ReadsAs limit style) items others) :
    ReadsAs limit style (.array items) (.array others) := by
  refine .of_step fun level fuel rest hfuel _ ↦ ?_
  cases h with
  | nil => rfl
  | @cons v w vs ws hfirst hmore =>
    obtain ⟨c, t, htext, hblank, hclose⟩ := exists_writeAt style (level + 1) v
    have harray : writeAt style level (.array (v :: vs)) ++ rest =
        CodePoint.ofChar '[' :: (style.lineBreak (level + 1) ++ (writeAt style (level + 1) v ++
          (writeItems style (level + 1) vs ++ (style.lineBreak level ++
            CodePoint.ofChar ']' :: rest)))) := by
      simp only [writeAt, List.append_assoc]
      rfl
    have hlength := congrArg List.length harray
    simp only [List.length_append, List.length_cons] at hlength
    have hread := @items?_written limit style (level + 1) fuel rest _ hlaw v w vs ws hfirst hmore
      (style.isBlank_lineBreak level) (by omega)
    have hskip := @skip_writeAt style (level + 1) (writeItems style (level + 1) vs ++
      (style.lineBreak level ++ CodePoint.ofChar ']' :: rest)) _
      (style.isBlank_lineBreak (level + 1)) v
    rw [htext, List.cons_append] at hread hskip
    rw [harray, htext, List.cons_append]
    exact value?_array hskip hclose hread

/-- An object is read as what setting its names, one after the other, to what its values are read as
gives. -/
theorem ReadsAs.object (hlaw : style.IsLawful) {fields others : Fields Json}
    (h : Forall₂ (FieldReadsAs limit style) fields others) :
    ReadsAs limit style (.object fields) (.object (Fields.ofList others)) := by
  refine .of_step fun level fuel rest hfuel _ ↦ ?_
  cases h with
  | nil => rfl
  | @cons f g fs gs hfirst hmore =>
    obtain ⟨name, v⟩ := f
    have hobject : writeAt style level (.object ((name, v) :: fs)) ++ rest =
        CodePoint.ofChar '\x7b' :: (style.lineBreak (level + 1) ++ (quote style.asciiOnly name ++
          (style.colon ++ (writeAt style (level + 1) v ++ (writeFields style (level + 1) fs ++
            (style.lineBreak level ++ CodePoint.ofChar '\x7d' :: rest)))))) := by
      simp only [writeAt, List.append_assoc]
      rfl
    have hlength := congrArg List.length hobject
    simp only [List.length_append, List.length_cons] at hlength
    have hread := @members?_written limit style (level + 1) fuel rest _ hlaw (name, v) g fs gs
      hfirst hmore (style.isBlank_lineBreak level) (show _ < fuel by dsimp only; omega)
    have hskip := @skip_quote (style.colon ++ (writeAt style (level + 1) v ++
      (writeFields style (level + 1) fs ++ (style.lineBreak level ++
        CodePoint.ofChar '\x7d' :: rest)))) _ (style.isBlank_lineBreak (level + 1))
      style.asciiOnly name
    obtain ⟨body, hquote, -⟩ := stringBody?_quoted hfirst.1 (style.colon ++
      (writeAt style (level + 1) v ++ (writeFields style (level + 1) fs ++
        (style.lineBreak level ++ CodePoint.ofChar '\x7d' :: rest))))
    dsimp only at hread hquote
    rw [hquote] at hread hskip
    rw [hobject, hquote, value?_object hskip (by decide) hread]

/-- A value is read back where its names are distinct, its whole numbers within the limit and, if
ASCII alone is written, no text holds the halves of a surrogate pair side by side. -/
theorem readsAs_self (hlaw : style.IsLawful) {v : Json} (h : v.DistinctNames)
    (hnumbers : v.NumbersWithin limit)
    (htexts : style.asciiOnly = true → v.AllTexts Text.IsJoined) : ReadsAs limit style v v := by
  induction h with
  | array _ ih =>
    have hitems := allNumbers_array_iff.mp hnumbers
    refine .array hlaw (List.forall₂_same.mpr fun v hv ↦ ih v hv (hitems v hv) fun hascii ↦ ?_)
    exact Value.allTexts_array_iff.mp (htexts hascii) v hv
  | @object fields hdistinct _ ih =>
    have hvalues := allNumbers_object_iff.mp hnumbers
    have hfields := fun hascii ↦ Value.allTexts_object_iff.mp (htexts hascii)
    have hread := ReadsAs.object hlaw (List.forall₂_same.mpr fun f hf ↦
      ⟨stringBody?_escaped fun hascii ↦ (hfields hascii f hf).1,
        ih f hf (hvalues f hf) fun hascii ↦ (hfields hascii f hf).2⟩)
    rwa [Fields.ofList_eq_self hdistinct] at hread
  | other e => exact e.elim
  | null => exact .null
  | bool b => exact .bool b
  | int i => exact .int (allNumbers_int_iff.mp hnumbers)
  | float x => exact .float x
  | string t =>
    exact .string (stringBody?_escaped fun hascii ↦ Value.allTexts_string_iff.mp (htexts hascii))

/-- A string is read from its text, perhaps with halves of surrogate pairs joined. -/
theorem exists_textReadsAs (asciiOnly : Bool) (t : Text) : ∃ u, TextReadsAs asciiOnly t u := by
  obtain ⟨ps, -, hread⟩ := pieces?_escaped asciiOnly t
  refine ⟨joinPieces ps, fun rest ↦ ?_⟩
  rw [stringBody?, hread, Option.map_some]

mutual

/-- Every value with whole numbers within the limit is read from its text, perhaps with fewer fields
and with halves of surrogate pairs joined. -/
theorem exists_readsAs (hlaw : style.IsLawful) (v : Json) (hnumbers : v.NumbersWithin limit) :
    ∃ w, ReadsAs limit style v w := by
  match v with
  | .array items =>
    obtain ⟨others, hread⟩ := exists_readsAs_items hlaw items (allNumbers_array_iff.mp hnumbers)
    exact ⟨_, .array hlaw hread⟩
  | .object fields =>
    obtain ⟨others, hread⟩ := exists_readsAs_fields hlaw fields (allNumbers_object_iff.mp hnumbers)
    exact ⟨_, .object hlaw hread⟩
  | .string t =>
    obtain ⟨u, hread⟩ := exists_textReadsAs style.asciiOnly t
    exact ⟨_, .string hread⟩
  | .null => exact ⟨_, .null⟩
  | .bool b => exact ⟨_, .bool b⟩
  | .int i => exact ⟨_, .int (allNumbers_int_iff.mp hnumbers)⟩
  | .float x => exact ⟨_, .float x⟩

private theorem exists_readsAs_items (hlaw : style.IsLawful) (items : List Json)
    (hnumbers : ∀ v ∈ items, v.NumbersWithin limit) :
    ∃ others, Forall₂ (ReadsAs limit style) items others := by
  match items with
  | [] => exact ⟨[], .nil⟩
  | v :: rest =>
    obtain ⟨hv, hmore⟩ := List.forall_mem_cons.mp hnumbers
    obtain ⟨w, hfirst⟩ := exists_readsAs hlaw v hv
    obtain ⟨others, hrest⟩ := exists_readsAs_items hlaw rest hmore
    exact ⟨w :: others, .cons hfirst hrest⟩

private theorem exists_readsAs_fields (hlaw : style.IsLawful) (fields : List (Text × Json))
    (hnumbers : ∀ f ∈ fields, f.2.NumbersWithin limit) :
    ∃ others, Forall₂ (FieldReadsAs limit style) fields others := by
  match fields with
  | [] => exact ⟨[], .nil⟩
  | (name, v) :: rest =>
    obtain ⟨hv, hmore⟩ := List.forall_mem_cons.mp hnumbers
    obtain ⟨other, hname⟩ := exists_textReadsAs style.asciiOnly name
    obtain ⟨w, hfirst⟩ := exists_readsAs hlaw v hv
    obtain ⟨others, hrest⟩ := exists_readsAs_fields hlaw rest hmore
    exact ⟨(other, w) :: others, .cons ⟨hname, hfirst⟩ hrest⟩

end

/-- A text that was written is read with blanks behind it. -/
theorem ReadsAs.parse?_append {v w : Json} (h : ReadsAs limit style v w) {blanks : Text}
    (hblanks : ∀ c ∈ blanks, isBlankChar c = true) :
    parse? (write style v ++ blanks) limit = some w := by
  have hend : EndsNumber [] := nofun
  have hends : EndsNumber blanks := by
    have happend := EndsNumber.blanks_append hblanks hend
    rwa [List.append_nil] at happend
  have hlength : (writeAt style 0 v).length < (write style v ++ blanks).length + 1 := by
    rw [write, List.length_append]
    omega
  have hread := h 0 _ blanks hlength hends
  obtain ⟨c, t, htext, hblank, -⟩ := exists_writeAt style 0 v
  have hskip : skip (write style v ++ blanks) = write style v ++ blanks := by
    rw [write, htext, List.cons_append, skip_cons hblank]
  have hrest : skip blanks = [] := by
    have hall := skip_blanks hblanks []
    rwa [List.append_nil] at hall
  rw [parse?, hskip]
  rw [write] at hread ⊢
  simp only [hread, bind, Option.bind, hrest, if_true]

/-- A text that was written is read. -/
theorem ReadsAs.parse?_eq {v w : Json} (h : ReadsAs limit style v w) :
    parse? (write style v) limit = some w := by
  have hread := h.parse?_append (List.forall_mem_nil _)
  rwa [List.append_nil] at hread

/-- A text that was written is read back. -/
theorem parse?_write (hlaw : style.IsLawful) {v : Json} (h : v.DistinctNames)
    (hnumbers : v.NumbersWithin limit)
    (htexts : style.asciiOnly = true → v.AllTexts Text.IsJoined) :
    parse? (write style v) limit = some v :=
  (readsAs_self hlaw h hnumbers htexts).parse?_eq

end Values

section Documents

variable {style : Style} {fields : Fields Json}

/-- The text of an object starts with a brace and another character than zero. -/
theorem exists_write_object (style : Style) (fields : Fields Json) :
    ∃ d t, write style (.object fields) = CodePoint.ofChar '\x7b' :: d :: t ∧ d.val ≠ 0 := by
  match fields with
  | [] => exact ⟨_, _, rfl, by decide⟩
  | (name, v) :: fs =>
    rw [write, writeAt, Style.lineBreak]
    simp only [List.append_assoc]
    cases style.indent with
    | none => exact ⟨_, _, rfl, by decide⟩
    | some width => exact ⟨_, _, rfl, by decide⟩

/-- An object is read from the document that it is written to. -/
theorem ReadsAs.decode?_eq {w : Json}
    (h : ReadsAs (some Text.digitLimit) style (.object fields) w) :
    decode? ((write style (.object fields)).flatMap Encoding.utf8Bytes) = some w := by
  obtain ⟨d, t, htext, hd⟩ := exists_write_object style fields
  have hdecode := @Encoding.decode?_flatMap (CodePoint.ofChar '\x7b') (d :: t) (by decide)
    (by decide) (by rintro _ ⟨⟩; exact hd)
  rw [← htext] at hdecode
  rw [decode?, hdecode]
  exact h.parse?_eq

/-- The document that an object is written to is an object, if its whole numbers can be written. -/
theorem exists_decode?_write (hlaw : style.IsLawful)
    (hnumbers : (Value.object fields : Json).NumbersWithin (some Text.digitLimit)) :
    ∃ others, decode? ((write style (.object fields)).flatMap Encoding.utf8Bytes) =
      some (.object others) := by
  obtain ⟨others, hread⟩ := exists_readsAs_fields hlaw fields (allNumbers_object_iff.mp hnumbers)
  exact ⟨_, (ReadsAs.object hlaw hread).decode?_eq⟩

/-- An object is read back from the document that it is written to. -/
theorem decode?_of_encode? (hlaw : style.IsLawful) (h : (Value.object fields : Json).DistinctNames)
    (hnumbers : (Value.object fields : Json).NumbersWithin (some Text.digitLimit))
    (htexts : style.asciiOnly = true → (Value.object fields : Json).AllTexts Text.IsJoined)
    {bytes : Bytes} (hbytes : Encoding.encodeUtf8? (write style (.object fields)) = some bytes) :
    decode? bytes = some (.object fields) := by
  unfold Encoding.encodeUtf8? at hbytes
  split at hbytes
  · cases hbytes
    exact (readsAs_self hlaw h hnumbers htexts).decode?_eq
  · cases hbytes

end Documents

end Json

end ApiTools
