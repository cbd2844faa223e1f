import ApiTools.Proofs.DistinctNames
import ApiTools.Proofs.LiteralTexts

/-!
# Reading the literals of values

A value of texts, truth values, lists and objects is read back from its literal (`Plain.isWritten`).
The readers of lists and members take any reader of their parts, so a table whose values are written
otherwise is read by them as well.
-/

namespace ApiTools

namespace Literal

section Blanks

variable {c : CodePoint}

/-- Nothing is passed over before a code point that is not blank. -/
theorem skip_cons (hc : isBlankChar c = false) (t : Text) : skip (c :: t) = c :: t := by
  rw [skip, List.dropWhile_cons, hc]
  rfl

/-- Blank code points are passed over. -/
theorem skip_blanks (blanks : Text) (h : ∀ c ∈ blanks, isBlankChar c = true) (t : Text) :
    skip (blanks ++ t) = skip t :=
  List.dropWhile_append_of_pos h

end Blanks

/-- A text that is found behind blanks and does not close what it stands in. -/
def Begins (w : Text) : Prop :=
  ∃ c t, w = c :: t ∧ isBlankChar c = false ∧ c ≠ ']' ∧ c ≠ CodePoint.ofChar '\x7d'

private theorem Begins.skip_append {w : Text} (h : Begins w) (rest : Text) :
    skip (w ++ rest) = w ++ rest := by
  obtain ⟨c, t, rfl, hblank, -⟩ := h
  exact skip_cons hblank _

private theorem begins_text (t rest : Text) : Begins (text t ++ rest) := by
  refine ⟨_, _, text_append t rest, ?_⟩
  unfold quoteMark
  split <;> decide

/-- A reader reads a value from a text, whatever stands behind it but a quote. -/
structure IsWritten {α : Type} (part? : Text → Option (α × Text)) (w : Text) (a : α) : Prop where
  begins : Begins w
  read : ∀ {rest}, Ended rest → part? (w ++ rest) = some (a, rest)

/-- A literal ends before any code point that is no quote. -/
theorem ended_cons {c : CodePoint} (hc : isQuote c = false) (t : Text) : Ended (c :: t) := by
  rintro d ⟨⟩
  exact hc

section Lists

variable {α : Type} {part? : Text → Option (α × Text)} {spell : α → Text} {closing : CodePoint}
  {bound : Nat} {rest : Text}

private theorem listed?_close (part? : Text → Option (α × Text)) (closing : CodePoint) (bound : Nat)
    (rest : Text) : listed? part? closing (bound + 1) (closing :: rest) = some ([], rest) := by
  rw [listed?.eq_def]
  simp only [↓reduceIte]

private theorem listed?_last {w t : Text} {a : α} (hclosing : closing = ']' ∨ closing = '\x7d')
    (hw : IsWritten part? w a) (hends : Ended t) (ht : skip t = closing :: rest) :
    listed? part? closing (bound + 1) (w ++ t) = some ([a], rest) := by
  obtain ⟨c, u, rfl, -, hbracket, hbrace⟩ := hw.begins
  have hc : c ≠ closing := by
    rcases hclosing with rfl | rfl
    · exact hbracket
    · exact hbrace
  have hread := hw.read hends
  rw [List.cons_append] at hread ⊢
  rw [listed?.eq_def]
  simp only [hc, hread, ht, bind, Option.bind, ↓reduceIte]

private theorem listed?_more {w t₁ t₂ : Text} {a : α} {others : List α}
    (hclosing : closing = ']' ∨ closing = '\x7d') (hw : IsWritten part? w a) (hends : Ended t₁)
    (ht : skip t₁ = CodePoint.ofChar ',' :: t₂)
    (hothers : listed? part? closing bound (skip t₂) = some (others, rest)) :
    listed? part? closing (bound + 1) (w ++ t₁) = some (a :: others, rest) := by
  obtain ⟨c, u, rfl, -, hbracket, hbrace⟩ := hw.begins
  have hc : c ≠ closing := by
    rcases hclosing with rfl | rfl
    · exact hbracket
    · exact hbrace
  have hcomma : CodePoint.ofChar ',' ≠ closing := by
    rcases hclosing with rfl | rfl <;> decide
  have hread := hw.read hends
  rw [List.cons_append] at hread ⊢
  rw [listed?.eq_def]
  simp only [hc, hread, ht, hcomma, hothers, bind, Option.bind, pure, ↓reduceIte]

/-- Further parts, each behind a comma. -/
def further (spell : α → Text) (others : List α) : Text := others.flatMap fun b ↦ ", " ++ spell b

/-- Parts on lines of their own, each before a comma. -/
def lined (spell : α → Text) (items : List α) : Text :=
  items.flatMap fun b ↦ "\n    " ++ (spell b ++ ",")

/-- Parts with commas between them are read up to the closing bracket. -/
theorem listed?_further (hclosing : closing = ']' ∨ closing = '\x7d') {a : α} {others : List α}
    (h : ∀ b ∈ a :: others, IsWritten part? (spell b) b) (hbound : others.length < bound) :
    listed? part? closing bound (spell a ++ (further spell others ++ closing :: rest)) =
      some (a :: others, rest) := by
  have hquote : isQuote closing = false := by
    rcases hclosing with rfl | rfl <;> rfl
  have hblank : isBlankChar closing = false := by
    rcases hclosing with rfl | rfl <;> rfl
  induction others generalizing a bound with
  | nil =>
    obtain ⟨bound, rfl⟩ : ∃ n, bound = n + 1 := ⟨bound - 1, by omega⟩
    exact listed?_last hclosing (h a List.mem_cons_self) (ended_cons hquote rest)
      (skip_cons hblank rest)
  | cons b others ih =>
    rw [List.length_cons] at hbound
    obtain ⟨bound, rfl⟩ : ∃ n, bound = n + 1 := ⟨bound - 1, by omega⟩
    have hbehind : further spell (b :: others) ++ closing :: rest = CodePoint.ofChar ',' ::
        (" " ++ (spell b ++ (further spell others ++ closing :: rest))) := by
      rw [further, List.flatMap_cons, List.append_assoc, List.append_assoc]
      rfl
    have hb := h b (List.mem_cons_of_mem a List.mem_cons_self)
    rw [hbehind]
    refine listed?_more hclosing (h a List.mem_cons_self) (ended_cons rfl _) (skip_cons rfl _) ?_
    rw [skip_blanks " " (by decide), hb.begins.skip_append]
    exact ih (fun d hd ↦ h d (List.mem_cons_of_mem a hd)) (by omega)

/-- Parts on lines of their own are read up to the closing bracket on a line of its own. -/
theorem listed?_lined (hclosing : closing = ']' ∨ closing = '\x7d') {items : List α}
    (h : ∀ b ∈ items, IsWritten part? (spell b) b) (hbound : items.length < bound) :
    listed? part? closing bound (skip (lined spell items ++ ("\n" ++ closing :: rest))) =
      some (items, rest) := by
  have hblank : isBlankChar closing = false := by
    rcases hclosing with rfl | rfl <;> rfl
  induction items generalizing bound with
  | nil =>
    obtain ⟨bound, rfl⟩ : ∃ n, bound = n + 1 := ⟨bound - 1, by omega⟩
    rw [lined, List.flatMap_nil, List.nil_append, skip_blanks "\n" (by decide), skip_cons hblank]
    exact listed?_close part? closing bound rest
  | cons b items ih =>
    rw [List.length_cons] at hbound
    obtain ⟨bound, rfl⟩ : ∃ n, bound = n + 1 := ⟨bound - 1, by omega⟩
    have hbehind : lined spell (b :: items) ++ ("\n" ++ closing :: rest) =
        "\n    " ++ (spell b ++
          CodePoint.ofChar ',' :: (lined spell items ++ ("\n" ++ closing :: rest))) := by
      simp only [lined, List.flatMap_cons, List.append_assoc]
      rfl
    have hb := h b List.mem_cons_self
    rw [hbehind, skip_blanks "\n    " (by decide), hb.begins.skip_append]
    exact listed?_more hclosing hb (ended_cons rfl _) (skip_cons rfl _)
      (ih (fun d hd ↦ h d (List.mem_cons_of_mem b hd)) (by omega))

/-- A name and its value are read. -/
theorem IsWritten.member {name w : Text} {a : α} (hw : IsWritten part? w a) :
    IsWritten (member? part?) (text name ++ (": " ++ w)) (name, a) where
  begins := begins_text name _
  read := by
    intro rest hrest
    have hskip : skip (": " ++ (w ++ rest)) =
        CodePoint.ofChar ':' :: CodePoint.ofChar ' ' :: (w ++ rest) := skip_cons rfl _
    have hvalue : skip (CodePoint.ofChar ' ' :: (w ++ rest)) = w ++ rest :=
      (skip_blanks " " (by decide) (w ++ rest)).trans (hw.begins.skip_append rest)
    have hname : text? (text name ++ (": " ++ (w ++ rest))) = some (name, ": " ++ (w ++ rest)) :=
      text?_text name (ended_cons rfl _)
    rw [List.append_assoc, List.append_assoc, member?, hname]
    simp only [bind, Option.bind, hskip, hvalue, hw.read hrest, pure, ↓reduceIte]

private theorem length_le_further (spell : α → Text) (others : List α) :
    others.length ≤ (further spell others).length := by
  induction others with
  | nil => exact Nat.zero_le _
  | cons b others ih =>
    have hcons : further spell (b :: others) = ", " ++ spell b ++ further spell others := rfl
    rw [hcons, List.length_append, List.length_append, List.length_cons]
    have hcomma : (", " : Text).length = 2 := rfl
    omega

/-- There are no more lines than code points. -/
theorem length_le_lined (spell : α → Text) (items : List α) :
    items.length ≤ (lined spell items).length := by
  induction items with
  | nil => exact Nat.zero_le _
  | cons b items ih =>
    have hcons : lined spell (b :: items) = "\n    " ++ (spell b ++ ",") ++ lined spell items := rfl
    rw [hcons, List.length_append, List.length_append, List.length_cons]
    have hblanks : ("\n    " : Text).length = 5 := rfl
    omega

/-- No part is longer than all of them together. -/
theorem length_le_of_mem (spell : α → Text) {a b : α} {others : List α} (h : b ∈ a :: others) :
    (spell b).length ≤ (spell a).length + (further spell others).length := by
  rcases List.mem_cons.mp h with rfl | h
  · exact Nat.le_add_right _ _
  · obtain ⟨before, behind, rfl⟩ := List.append_of_mem h
    simp only [further, List.flatMap_append, List.flatMap_cons, List.length_append]
    omega

end Lists

section Values

/-- The literal of JSON. -/
def written (v : Json) : Text := value v.lift

/-- A name with the literal of its value. -/
def writtenField (f : Text × Json) : Text := text f.1 ++ (": " ++ written f.2)

private theorem moreItems_lift (items : List Json) :
    moreItems (items.map Json.lift) = further written items := by
  induction items with
  | nil => rfl
  | cons v rest ih =>
    rw [List.map_cons, moreItems, ih]
    rfl

private theorem moreFields_lift (fields : Fields Json) :
    moreFields (fields.mapValues Json.lift) = further writtenField fields := by
  induction fields with
  | nil => rfl
  | cons f rest ih =>
    have hcons : Fields.mapValues Json.lift (f :: rest) =
        (f.1, (Json.lift f.2 : Value Bytes)) :: Fields.mapValues Json.lift rest := rfl
    rw [hcons, moreFields, ih]
    simp [further, writtenField, written]

private theorem written_array (v : Json) (rest : List Json) :
    written (.array (v :: rest)) =
      CodePoint.ofChar '[' :: (written v ++ (further written rest ++ "]")) := by
  have hrest := moreItems_lift rest
  rw [written, Json.lift_array, List.map_cons, value, hrest, List.append_assoc, List.append_assoc]
  rfl

private theorem written_object (f : Text × Json) (rest : Fields Json) :
    written (.object (f :: rest)) =
      CodePoint.ofChar '\x7b' :: (writtenField f ++ (further writtenField rest ++ "\x7d")) := by
  have hrest := moreFields_lift rest
  have hcons : Fields.mapValues Json.lift (f :: rest) =
      (f.1, (Json.lift f.2 : Value Bytes)) :: Fields.mapValues Json.lift rest := rfl
  rw [written, Json.lift_object, hcons, value, hrest, writtenField, written]
  simp only [List.append_assoc]
  rfl

/-- The values that are read: no numbers, and no two fields of one name. -/
inductive Plain : Json → Prop where
  | null : Plain .null
  | bool (b : Bool) : Plain (.bool b)
  | string (t : Text) : Plain (.string t)
  | array {items : List Json} : (∀ v ∈ items, Plain v) → Plain (.array items)
  | object {fields : Fields Json} : fields.Distinct → (∀ f ∈ fields, Plain f.2) →
      Plain (.object fields)

variable {depth : Nat}

private theorem isWritten_string (t : Text) :
    IsWritten (value? (depth + 1)) (written (.string t)) (.string t) where
  begins := by
    have hbegins := begins_text t []
    rwa [List.append_nil] at hbegins
  read := by
    intro rest hrest
    have hread := text?_text t hrest
    have hvalue : written (.string t) = text t := rfl
    rw [text_append] at hread
    rw [hvalue, text_append, value?, if_pos (isQuote_quoteMark t), hread]
    rfl

/-- A list is read if its items are. -/
theorem isWritten_array {items : List Json}
    (h : ∀ v ∈ items, IsWritten (value? depth) (written v) v) :
    IsWritten (value? (depth + 1)) (written (.array items)) (.array items) where
  begins := by
    cases items with
    | nil => exact ⟨_, _, rfl, by decide⟩
    | cons v rest => exact ⟨_, _, written_array v rest, by decide⟩
  read := by
    intro behind _
    have hopen : ∀ t, value? (depth + 1) (CodePoint.ofChar '[' :: t) =
        (listed? (value? depth) ']' (t.length + 1) (skip t)).map fun r ↦ (.array r.1, r.2) :=
      fun _ ↦ rfl
    cases items with
    | nil =>
      have hwritten : written (.array []) ++ behind =
          CodePoint.ofChar '[' :: CodePoint.ofChar ']' :: behind := rfl
      rw [hwritten, hopen, skip_cons rfl, listed?_close]
      rfl
    | cons v rest =>
      have hwritten : written (.array (v :: rest)) ++ behind = CodePoint.ofChar '[' ::
          (written v ++ (further written rest ++ CodePoint.ofChar ']' :: behind)) := by
        rw [written_array, List.cons_append, List.append_assoc, List.append_assoc]
        rfl
      have hlength := length_le_further written rest
      rw [hwritten, hopen, (h v List.mem_cons_self).begins.skip_append,
        listed?_further (.inl rfl) h (by simp only [List.length_append]; omega)]
      rfl

/-- An object of distinct names is read if its values are. -/
theorem isWritten_object {fields : Fields Json} (hdistinct : fields.Distinct)
    (h : ∀ f ∈ fields, IsWritten (value? depth) (written f.2) f.2) :
    IsWritten (value? (depth + 1)) (written (.object fields)) (.object fields) where
  begins := by
    cases fields with
    | nil => exact ⟨_, _, rfl, by decide⟩
    | cons f rest => exact ⟨_, _, written_object f rest, by decide⟩
  read := by
    intro behind _
    have hopen : ∀ t, value? (depth + 1) (CodePoint.ofChar '\x7b' :: t) =
        (members? (value? depth) (CodePoint.ofChar '\x7b' :: t)).map fun r ↦
          (.object r.1, r.2) := fun _ ↦ rfl
    cases fields with
    | nil => rfl
    | cons f rest =>
      have hwritten : written (.object (f :: rest)) ++ behind = CodePoint.ofChar '\x7b' ::
          (writtenField f ++ (further writtenField rest ++ CodePoint.ofChar '\x7d' :: behind)) := by
        rw [written_object, List.cons_append, List.append_assoc, List.append_assoc]
        rfl
      have hfields : ∀ g ∈ f :: rest, IsWritten (member? (value? depth)) (writtenField g) g :=
        fun g hg ↦ (h g hg).member
      have hlength := length_le_further writtenField rest
      rw [hwritten, hopen, members?, if_pos rfl,
        (hfields f List.mem_cons_self).begins.skip_append,
        listed?_further (.inr rfl) hfields (by simp only [List.length_append]; omega),
        Option.map_some, Option.map_some, Fields.ofList_eq_self hdistinct]

private theorem length_lt_of_mem_items {v : Json} {items : List Json} (h : v ∈ items) :
    (written v).length < (written (.array items)).length := by
  cases items with
  | nil => cases h
  | cons w rest =>
    have hpart := length_le_of_mem written h
    rw [written_array, List.length_cons, List.length_append, List.length_append]
    omega

private theorem length_lt_of_mem_fields {f : Text × Json} {fields : Fields Json} (h : f ∈ fields) :
    (written f.2).length < (written (.object fields)).length := by
  cases fields with
  | nil => cases h
  | cons g rest =>
    have hpart := length_le_of_mem writtenField h
    have hfield : (written f.2).length ≤ (writtenField f).length := by
      rw [writtenField, List.length_append, List.length_append]
      omega
    rw [written_object, List.length_cons, List.length_append, List.length_append]
    omega

/-- A value is read back from its literal by a reader of more levels than that is long. -/
theorem Plain.isWritten {v : Json} (h : Plain v) (hdepth : (written v).length < depth) :
    IsWritten (value? depth) (written v) v := by
  -- A value inside of another is shorter by its brackets, and one level is left for each of them.
  induction h generalizing depth with
  | null =>
    obtain ⟨depth, rfl⟩ : ∃ n, depth = n + 1 := ⟨depth - 1, by omega⟩
    exact ⟨⟨_, _, rfl, by decide⟩, fun _ ↦ rfl⟩
  | bool b =>
    obtain ⟨depth, rfl⟩ : ∃ n, depth = n + 1 := ⟨depth - 1, by omega⟩
    cases b <;> exact ⟨⟨_, _, rfl, by decide⟩, fun _ ↦ rfl⟩
  | string t =>
    obtain ⟨depth, rfl⟩ : ∃ n, depth = n + 1 := ⟨depth - 1, by omega⟩
    exact isWritten_string t
  | @array items _ ih =>
    obtain ⟨depth, rfl⟩ : ∃ n, depth = n + 1 := ⟨depth - 1, by omega⟩
    refine isWritten_array fun v hv ↦ ih v hv ?_
    have hlength := length_lt_of_mem_items hv
    omega
  | @object fields hdistinct _ ih =>
    obtain ⟨depth, rfl⟩ : ∃ n, depth = n + 1 := ⟨depth - 1, by omega⟩
    refine isWritten_object hdistinct fun f hf ↦ ih f hf ?_
    have hlength := length_lt_of_mem_fields hf
    omega

end Values

end Literal

end ApiTools
