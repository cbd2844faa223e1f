import ApiTools.Proofs.ReplacedTexts
import ApiTools.Request.Basic

/-!
# Placeholders

A placeholder is a name without braces between two braces. A text falls into placeholders and
single code points, which says what it means to fill all placeholders of a template at once: no
text put in is looked at again. Replacing the placeholder of one name is such a filling; how
fillings one after the other compare with one at once is the last part.
-/

namespace ApiTools

namespace Placeholder

open Request (placeholder)

/-- A name without braces. -/
def IsPlain (name : Text) : Prop := ∀ c ∈ name, c ≠ CodePoint.ofChar '{' ∧ c ≠ CodePoint.ofChar '}'

instance (name : Text) : Decidable (IsPlain name) := inferInstanceAs (Decidable (∀ c ∈ name, _))

/-- The part of a text before its first closing brace, unless an opening one stands there. -/
def closing? : Text → Option Text
  | [] => none
  | c :: t => if c = '}' then some [] else if c = '{' then none else (closing? t).map (c :: ·)

/-- The name of the placeholder that a text starts with. -/
def starting? : Text → Option Text
  | [] => none
  | c :: t => if c = '{' then closing? t else none

/-- A part of a text: a placeholder, or a code point outside of any. -/
inductive Piece where
  | plain (c : CodePoint)
  | hole (name : Text)
deriving DecidableEq

/-- The parts of a text with a number of code points still to be passed over. -/
def piecesFrom : Nat → Text → List Piece
  | _, [] => []
  | skip + 1, _ :: t => piecesFrom skip t
  | 0, c :: t =>
    match starting? (c :: t) with
    | some name => .hole name :: piecesFrom (name.length + 1) t
    | none => .plain c :: piecesFrom 0 t

/-- The parts of a text. -/
def pieces (t : Text) : List Piece := piecesFrom 0 t

/-- A part with a placeholder replaced by its value if it has one. -/
def Piece.filled (value? : Text → Option Text) : Piece → Text
  | .plain c => [c]
  | .hole name => (value? name).getD (placeholder name)

/-- A template with the placeholders that have a value replaced by it, all at once. -/
def filled (value? : Text → Option Text) (t : Text) : Text :=
  (pieces t).flatMap (Piece.filled value?)

/-- The number of placeholders of a name. -/
def occurrences (name t : Text) : Nat := (pieces t).count (.hole name)

/-- The values of one name alone. -/
def only (name text : Text) : Text → Option Text := fun n ↦ if n = name then some text else none

/-- Values with one more name. -/
def extend (value? : Text → Option Text) (name text : Text) : Text → Option Text :=
  fun n ↦ if n = name then some text else value? n

/-! ### The parts of a text -/

private theorem placeholder_eq (name : Text) :
    placeholder name = CodePoint.ofChar '{' :: (name ++ [CodePoint.ofChar '}']) := rfl

private theorem length_placeholder (name : Text) : (placeholder name).length = name.length + 2 := by
  simp [placeholder_eq]

private theorem brace_ne : CodePoint.ofChar '{' ≠ CodePoint.ofChar '}' := by decide

/-- Before its first closing brace a text has a plain name exactly when it starts with that name
and the brace. -/
theorem closing?_eq_some_iff (t name : Text) :
    closing? t = some name ↔ IsPlain name ∧ ∃ rest, t = name ++ CodePoint.ofChar '}' :: rest := by
  induction t generalizing name with
  | nil => simp [closing?]
  | cons c t ih =>
    by_cases hclose : c = CodePoint.ofChar '}'
    · subst hclose
      cases name with
      | nil => simp [closing?, IsPlain]
      | cons d name =>
        simp only [closing?, ↓reduceIte, Option.some.injEq, List.cons_append]
        constructor
        · intro h
          cases h
        · rintro ⟨hplain, rest, h⟩
          rw [List.cons.injEq] at h
          exact absurd h.1.symm (hplain d (by simp)).2
    · by_cases hopen : c = CodePoint.ofChar '{'
      · subst hopen
        simp only [closing?, hclose, ↓reduceIte, reduceCtorEq, false_iff]
        rintro ⟨hplain, rest, h⟩
        cases name with
        | nil => exact brace_ne (List.cons.inj h).1
        | cons d name => exact (hplain d (by simp)).1 (List.cons.inj h).1.symm
      · simp only [closing?, hclose, hopen, ↓reduceIte, Option.map_eq_some_iff]
        constructor
        · rintro ⟨inner, hinner, rfl⟩
          obtain ⟨hplain, rest, rfl⟩ := (ih inner).mp hinner
          refine ⟨?_, rest, rfl⟩
          intro d hd
          rcases List.mem_cons.mp hd with rfl | hd
          · exact ⟨hopen, hclose⟩
          · exact hplain d hd
        · rintro ⟨hplain, rest, h⟩
          cases name with
          | nil => exact absurd (List.cons.inj h).1 hclose
          | cons d name =>
            obtain ⟨rfl, htail⟩ := List.cons.inj h
            exact ⟨name, (ih name).mpr ⟨fun e he ↦ hplain e (by simp [he]), rest, htail⟩, rfl⟩

/-- A text starts with a placeholder exactly when it is one with a rest behind it. -/
theorem starting?_eq_some_iff (t name : Text) :
    starting? t = some name ↔ IsPlain name ∧ ∃ rest, t = placeholder name ++ rest := by
  cases t with
  | nil => simp [starting?, placeholder_eq]
  | cons c t =>
    by_cases hopen : c = CodePoint.ofChar '{'
    · subst hopen
      simp [starting?, closing?_eq_some_iff, placeholder_eq]
    · simp [starting?, hopen, placeholder_eq]

private theorem starting?_placeholder_append {name : Text} (hplain : IsPlain name) (t : Text) :
    starting? (placeholder name ++ t) = some name :=
  (starting?_eq_some_iff _ _).mpr ⟨hplain, t, rfl⟩

/-- Passing over code points leaves the parts of what is behind them. -/
theorem piecesFrom_eq (skip : Nat) (t : Text) : piecesFrom skip t = pieces (t.drop skip) := by
  induction t generalizing skip with
  | nil => simp [pieces, piecesFrom]
  | cons c t ih =>
    cases skip with
    | zero => rfl
    | succ skip => simpa [piecesFrom] using ih skip

private theorem pieces_cons {c : CodePoint} {t : Text} (h : starting? (c :: t) = none) :
    pieces (c :: t) = .plain c :: pieces t := by
  simp only [pieces, piecesFrom, h]

private theorem pieces_placeholder_append {name : Text} (hplain : IsPlain name) (t : Text) :
    pieces (placeholder name ++ t) = .hole name :: pieces t := by
  have hstart := starting?_placeholder_append hplain t
  rw [placeholder_eq, List.cons_append] at hstart ⊢
  simp only [pieces, piecesFrom, hstart]
  rw [piecesFrom_eq]
  simp [pieces]

/-- Every text is empty, or a code point that starts no placeholder before a text, or a placeholder
before a text. -/
@[elab_as_elim]
theorem piece_induction {motive : Text → Prop} (nil : motive [])
    (plain : ∀ c t, starting? (c :: t) = none → motive t → motive (c :: t))
    (hole : ∀ name t, IsPlain name → motive t → motive (placeholder name ++ t)) (t : Text) :
    motive t := by
  induction hlength : t.length using Nat.strongRecOn generalizing t with
  | ind n ih =>
    cases t with
    | nil => exact nil
    | cons c t =>
      subst hlength
      cases hstart : starting? (c :: t) with
      | none => exact plain c t hstart (ih t.length (by simp) t rfl)
      | some name =>
        obtain ⟨hplain, rest, hrest⟩ := (starting?_eq_some_iff _ _).mp hstart
        rw [hrest]
        refine hole name rest hplain (ih rest.length ?_ rest rfl)
        rw [hrest, List.length_append, length_placeholder]
        omega

private theorem closing?_append_brace {u : Text} (h : closing? u = none) (t : Text) :
    closing? (u ++ CodePoint.ofChar '{' :: t) = none := by
  induction u with
  | nil => simp [closing?, brace_ne]
  | cons d u ih =>
    by_cases hclose : d = CodePoint.ofChar '}'
    · simp [closing?, hclose] at h
    · by_cases hopen : d = CodePoint.ofChar '{'
      · simp [closing?, hopen, brace_ne]
      · simp only [closing?, hclose, hopen, ↓reduceIte, Option.map_eq_none_iff] at h
        simp only [List.cons_append, closing?, hclose, hopen, ↓reduceIte, ih h, Option.map_none]

/-- No part of a text reaches across an opening brace. -/
theorem pieces_append_brace (u t : Text) :
    pieces (u ++ CodePoint.ofChar '{' :: t) = pieces u ++ pieces (CodePoint.ofChar '{' :: t) := by
  induction u using piece_induction with
  | nil => rfl
  | plain c u hstart ih =>
    have hstart' : starting? (c :: (u ++ CodePoint.ofChar '{' :: t)) = none := by
      by_cases hopen : c = CodePoint.ofChar '{'
      · simp only [starting?, hopen, ↓reduceIte] at hstart ⊢
        exact closing?_append_brace hstart t
      · simp [starting?, hopen]
    rw [List.cons_append, pieces_cons hstart', pieces_cons hstart, ih, List.cons_append]
  | hole name u hplain ih =>
    rw [List.append_assoc, pieces_placeholder_append hplain, pieces_placeholder_append hplain, ih,
      List.cons_append]

private theorem pieces_append_placeholder {name : Text} (hplain : IsPlain name) (u t : Text) :
    pieces (u ++ (placeholder name ++ t)) = pieces u ++ .hole name :: pieces t := by
  rw [← pieces_placeholder_append hplain]
  exact pieces_append_brace u _

/-- Every placeholder of a text has a plain name. -/
theorem isPlain_of_mem_pieces {name t : Text} (h : .hole name ∈ pieces t) : IsPlain name := by
  induction t using piece_induction with
  | nil => cases h
  | plain c t hstart ih =>
    rw [pieces_cons hstart] at h
    exact ih (List.mem_of_ne_of_mem (by simp) h)
  | hole other t hplain ih =>
    rw [pieces_placeholder_append hplain] at h
    rcases List.mem_cons.mp h with heq | h
    · cases heq
      exact hplain
    · exact ih h

/-! ### Filling -/

section Filling

variable (value? : Text → Option Text)

private theorem filled_nil : filled value? [] = [] := rfl

private theorem filled_cons {c : CodePoint} {t : Text} (h : starting? (c :: t) = none) :
    filled value? (c :: t) = c :: filled value? t := by
  simp [filled, pieces_cons h, Piece.filled]

private theorem filled_placeholder_append {name : Text} (hplain : IsPlain name) (t : Text) :
    filled value? (placeholder name ++ t) =
      (value? name).getD (placeholder name) ++ filled value? t := by
  simp [filled, pieces_placeholder_append hplain, Piece.filled]

private theorem filled_append_placeholder {name : Text} (hplain : IsPlain name) (u t : Text) :
    filled value? (u ++ (placeholder name ++ t)) =
      filled value? u ++ ((value? name).getD (placeholder name) ++ filled value? t) := by
  simp [filled, pieces_append_placeholder hplain, Piece.filled]

/-- Filling each placeholder with itself, or with nothing, changes nothing. -/
theorem filled_eq_self (h : ∀ name text, value? name = some text → text = placeholder name)
    (t : Text) : filled value? t = t := by
  induction t using piece_induction with
  | nil => rfl
  | plain c t hstart ih => rw [filled_cons value? hstart, ih]
  | hole name t hplain ih =>
    rw [filled_placeholder_append value? hplain, ih]
    cases hvalue : value? name with
    | none => rfl
    | some text => rw [Option.getD_some, h name text hvalue]

end Filling

private theorem occurrences_nil (name : Text) : occurrences name [] = 0 := rfl

private theorem occurrences_cons (name : Text) {c : CodePoint} {t : Text}
    (h : starting? (c :: t) = none) :
    occurrences name (c :: t) = occurrences name t := by
  simp [occurrences, pieces_cons h]

private theorem occurrences_placeholder_append (name : Text) {other : Text} (hplain : IsPlain other)
    (t : Text) :
    occurrences name (placeholder other ++ t) =
      occurrences name t + if other = name then 1 else 0 := by
  simp [occurrences, pieces_placeholder_append hplain, List.count_cons]

private theorem occurrences_append_placeholder (name : Text) {other : Text} (hplain : IsPlain other)
    (u t : Text) :
    occurrences name (u ++ (placeholder other ++ t)) =
      occurrences name u + (occurrences name t + if other = name then 1 else 0) := by
  simp [occurrences, pieces_append_placeholder hplain, List.count_cons]

/-- The length of a text in which the placeholders of one name are filled. -/
theorem length_filled_only (name text t : Text) :
    (filled (only name text) t).length + occurrences name t * (placeholder name).length =
      t.length + occurrences name t * text.length := by
  induction t using piece_induction with
  | nil => rw [filled_nil, occurrences_nil, Nat.zero_mul, Nat.zero_mul]
  | plain c t hstart ih =>
    rw [filled_cons _ hstart, occurrences_cons name hstart, List.length_cons, List.length_cons]
    omega
  | hole other t hplain ih =>
    rw [filled_placeholder_append _ hplain, occurrences_placeholder_append name hplain,
      List.length_append, List.length_append]
    by_cases hname : other = name
    · subst hname
      simp only [only, ↓reduceIte, Option.getD_some, Nat.add_mul, Nat.one_mul] at ih ⊢
      omega
    · simp only [only, hname, ↓reduceIte, Option.getD_none, Nat.add_zero] at ih ⊢
      omega

private theorem eq_placeholder_of_filled_only {name text t : Text}
    (hlength : text.length = (placeholder name).length) (h : filled (only name text) t = t)
    (hsome : occurrences name t ≠ 0) : text = placeholder name := by
  induction t using piece_induction with
  | nil => exact absurd (occurrences_nil name) hsome
  | plain c t hstart ih =>
    rw [filled_cons _ hstart, List.cons.injEq] at h
    rw [occurrences_cons name hstart] at hsome
    exact ih h.2 hsome
  | hole other t hplain ih =>
    rw [filled_placeholder_append _ hplain] at h
    rw [occurrences_placeholder_append name hplain] at hsome
    by_cases hname : other = name
    · subst hname
      simp only [only, ↓reduceIte, Option.getD_some] at h
      exact List.append_inj_left h hlength
    · simp only [only, hname, ↓reduceIte, Option.getD_none, Nat.add_zero] at h hsome
      exact ih (List.append_cancel_left h) hsome

/-- Filling the placeholders of one name changes a text unless there are none or they are filled
with themselves. -/
theorem filled_only_eq_self_iff (name text t : Text) :
    filled (only name text) t = t ↔ text = placeholder name ∨ occurrences name t = 0 := by
  constructor
  · intro h
    rcases Nat.eq_zero_or_pos (occurrences name t) with hnone | hsome
    · exact Or.inr hnone
    · have hlengths := length_filled_only name text t
      rw [h] at hlengths
      have hlength := Nat.eq_of_mul_eq_mul_left hsome (Nat.add_left_cancel hlengths)
      exact Or.inl (eq_placeholder_of_filled_only hlength.symm h (Nat.ne_of_gt hsome))
  · rintro (rfl | hnone)
    · apply filled_eq_self
      intro other text hvalue
      simp only [only, Option.ite_none_right_eq_some, Option.some.injEq] at hvalue
      rw [← hvalue.2, hvalue.1]
    · induction t using piece_induction with
      | nil => rfl
      | plain c t hstart ih =>
        rw [occurrences_cons name hstart] at hnone
        rw [filled_cons _ hstart, ih hnone]
      | hole other t hplain ih =>
        rw [occurrences_placeholder_append name hplain] at hnone
        have hname : other ≠ name := by
          intro h
          simp [h] at hnone
        rw [filled_placeholder_append _ hplain, ih (by omega), only, if_neg hname,
          Option.getD_none]

/-! ### Replacing -/

/-- Replacing a placeholder fills it. -/
theorem replace_eq_filled {name : Text} (hplain : IsPlain name) (new t : Text) :
    Text.replace t (placeholder name) new = filled (only name new) t := by
  induction t using piece_induction with
  | nil => rfl
  | plain c t hstart ih =>
    have hprefix : ¬placeholder name <+: c :: t := by
      rintro ⟨rest, hrest⟩
      rw [← hrest, starting?_placeholder_append hplain] at hstart
      cases hstart
    rw [Text.replace_cons new hprefix, filled_cons _ hstart, ih]
  | hole other t hother ih =>
    rw [filled_placeholder_append _ hother]
    by_cases hname : other = name
    · subst hname
      rw [Text.replace_append (by simp [placeholder_eq]), ih, only, if_pos rfl, Option.getD_some]
    · have hprefix : ¬placeholder name <+: placeholder other ++ t := by
        rintro ⟨rest, hrest⟩
        have hstart := starting?_placeholder_append hother t
        rw [← hrest, starting?_placeholder_append hplain] at hstart
        exact hname (Option.some.inj hstart).symm
      have hinner : CodePoint.ofChar '{' ∉ other ++ [CodePoint.ofChar '}'] := by
        rw [List.mem_append, List.mem_singleton, not_or]
        exact ⟨fun h ↦ (hother _ h).1 rfl, brace_ne⟩
      rw [placeholder_eq other, List.cons_append] at hprefix ⊢
      rw [Text.replace_cons new hprefix, placeholder_eq name, Text.replace_append_of_notMem hinner,
        ← placeholder_eq name, ih, only, if_neg hname, Option.getD_none, List.cons_append]

/-! ### Filling again -/

section Again

variable (value? : Text → Option Text) (name text : Text)

/-- Parts put together again with their placeholders filled. -/
private def joined (ps : List Piece) : Text := ps.flatMap (Piece.filled value?)

private theorem joined_cons (p : Piece) (ps : List Piece) :
    joined value? (p :: ps) = p.filled value? ++ joined value? ps := by
  simp [joined]

private theorem filled_extend_of_ne {p : Piece} (h : p ≠ .hole name) :
    p.filled (extend value? name text) = p.filled value? := by
  cases p with
  | plain c => rfl
  | hole other =>
    have hother : other ≠ name := fun e ↦ h (e ▸ rfl)
    simp [Piece.filled, extend, hother]

variable (hfree : value? name = none) (hplain : IsPlain name)

include hfree in
private theorem filled_hole : (Piece.hole name).filled value? = placeholder name := by
  simp [Piece.filled, hfree]

private theorem filled_extend_hole : (Piece.hole name).filled (extend value? name text) = text := by
  simp [Piece.filled, extend]

include hfree hplain in
/-- No placeholder of a name without a value is lost, whatever stands before the parts. -/
private theorem count_le_occurrences (ps : List Piece) (before : Text) :
    ps.count (.hole name) ≤ occurrences name (before ++ joined value? ps) := by
  induction ps generalizing before with
  | nil => exact Nat.zero_le _
  | cons p ps ih =>
    rw [joined_cons]
    by_cases hp : p = .hole name
    · subst hp
      rw [filled_hole value? name hfree, occurrences_append_placeholder name hplain,
        List.count_cons_self, if_pos rfl]
      have hrest := ih []
      rw [List.nil_append] at hrest
      omega
    · rw [List.count_cons_of_ne hp, ← List.append_assoc]
      exact ih _

include hfree in
private theorem length_joined_extend (ps : List Piece) :
    (joined (extend value? name text) ps).length +
        ps.count (.hole name) * (placeholder name).length =
      (joined value? ps).length + ps.count (.hole name) * text.length := by
  induction ps with
  | nil =>
    rw [List.count_nil, Nat.zero_mul, Nat.zero_mul, joined, joined, List.flatMap_nil,
      List.flatMap_nil]
  | cons p ps ih =>
    rw [joined_cons, joined_cons, List.length_append, List.length_append]
    by_cases hp : p = .hole name
    · subst hp
      rw [filled_extend_hole, filled_hole value? name hfree, List.count_cons_self, Nat.add_mul,
        Nat.add_mul]
      omega
    · rw [filled_extend_of_ne value? name text hp, List.count_cons_of_ne hp]
      omega

include hfree hplain in
/-- A text before a placeholder is as long as it was before, if the whole text is. -/
private theorem length_filled_before (ps : List Piece) (before : Text)
    (htotal : (filled (only name text) before).length +
        (filled (only name text) (joined value? ps)).length =
      before.length + (joined (extend value? name text) ps).length) :
    (filled (only name text) before).length = before.length := by
  have hle := count_le_occurrences value? name hfree hplain ps []
  have hbefore := length_filled_only name text before
  have hagain := length_filled_only name text (joined value? ps)
  have honce := length_joined_extend value? name text hfree ps
  obtain ⟨more, hmore⟩ := Nat.exists_eq_add_of_le hle
  rw [List.nil_append] at hmore
  rw [hmore, Nat.add_mul, Nat.add_mul] at hagain
  have hproduct : (occurrences name before + more) * (placeholder name).length =
      (occurrences name before + more) * text.length := by
    rw [Nat.add_mul, Nat.add_mul]
    omega
  rcases Nat.eq_zero_or_pos (occurrences name before + more) with hzero | hpos
  · have hnone : occurrences name before = 0 := by omega
    rw [hnone] at hbefore
    omega
  · rw [Nat.eq_of_mul_eq_mul_left hpos hproduct] at hbefore
    exact Nat.add_right_cancel hbefore

include hfree hplain in
/-- Filling the placeholders of one more name where the others are filled already. The text before
the parts is what the induction has passed over since the last placeholder of that name. -/
private theorem filled_only_joined_iff (ps : List Piece) (before : Text) :
    filled (only name text) (before ++ joined value? ps) =
        before ++ joined (extend value? name text) ps ↔
      text = placeholder name ∨
        occurrences name (before ++ joined value? ps) = ps.count (.hole name) := by
  induction ps generalizing before with
  | nil => simpa [joined] using filled_only_eq_self_iff name text before
  | cons p ps ih =>
    rw [joined_cons, joined_cons]
    by_cases hp : p = .hole name
    · subst hp
      have hrest := ih []
      have hle := count_le_occurrences value? name hfree hplain ps []
      simp only [List.nil_append] at hrest hle
      rw [filled_hole value? name hfree, filled_extend_hole, filled_append_placeholder _ hplain,
        occurrences_append_placeholder name hplain, List.count_cons_self, only, if_pos rfl,
        if_pos rfl, Option.getD_some]
      constructor
      · intro h
        have htotal := congrArg List.length h
        simp only [List.length_append] at htotal
        have hlength := length_filled_before value? name text hfree hplain ps before (by omega)
        obtain ⟨hbefore, hbehind⟩ := List.append_inj h hlength
        rcases (filled_only_eq_self_iff name text before).mp hbefore with heq | hnone
        · exact Or.inl heq
        · rcases hrest.mp (List.append_cancel_left hbehind) with heq | hcount
          · exact Or.inl heq
          · exact Or.inr (by omega)
      · intro h
        have hbefore : text = placeholder name ∨ occurrences name before = 0 :=
          h.imp_right fun hcount ↦ by omega
        have hbehind : text = placeholder name ∨
            occurrences name (joined value? ps) = ps.count (.hole name) :=
          h.imp_right fun hcount ↦ by omega
        rw [(filled_only_eq_self_iff name text before).mpr hbefore, hrest.mpr hbehind]
    · rw [filled_extend_of_ne value? name text hp, List.count_cons_of_ne hp, ← List.append_assoc,
        ← List.append_assoc]
      exact ih _

include hfree hplain in
/-- Filling the placeholders of one more name after others is the same as filling them with the
others, exactly when the others have brought in no such placeholder or it is filled with itself. -/
theorem filled_only_filled_iff (t : Text) :
    filled (only name text) (filled value? t) = filled (extend value? name text) t ↔
      text = placeholder name ∨ occurrences name (filled value? t) = occurrences name t :=
  filled_only_joined_iff value? name text hfree hplain (pieces t) []

end Again

/-! ### Values without braces -/

/-- Every opening brace starts a placeholder: no placeholder is nested or left open. -/
def IsFlat (t : Text) : Prop := .plain (CodePoint.ofChar '{') ∉ pieces t

instance (t : Text) : Decidable (IsFlat t) := inferInstanceAs (Decidable (_ ∉ pieces t))

private theorem occurrences_eq_zero (name : Text) {t : Text} (h : CodePoint.ofChar '{' ∉ t) :
    occurrences name t = 0 := by
  induction t using piece_induction with
  | nil => rfl
  | plain c t hstart ih =>
    rw [occurrences_cons name hstart]
    exact ih fun hmem ↦ h (List.mem_cons_of_mem c hmem)
  | hole other t hplain ih => exact absurd (by simp [placeholder_eq]) h

private theorem occurrences_joined (value? : Text → Option Text) {name : Text}
    (hfree : value? name = none)
    (hvalues : ∀ other text, value? other = some text → CodePoint.ofChar '{' ∉ text)
    (ps : List Piece) (hflat : .plain (CodePoint.ofChar '{') ∉ ps)
    (hplain : ∀ other, .hole other ∈ ps → IsPlain other) (before : Text)
    (hbefore : CodePoint.ofChar '{' ∉ before) :
    occurrences name (before ++ joined value? ps) = ps.count (.hole name) := by
  induction ps generalizing before with
  | nil => simpa [joined] using occurrences_eq_zero name hbefore
  | cons p ps ih =>
    have hrest := ih (fun h ↦ hflat (List.mem_cons_of_mem p h))
      (fun other hother ↦ hplain other (List.mem_cons_of_mem p hother))
    rw [joined_cons]
    cases p with
    | plain c =>
      have hc : CodePoint.ofChar '{' ≠ c := by
        rintro rfl
        exact hflat List.mem_cons_self
      rw [← List.append_assoc, hrest _ (by simp [Piece.filled, hbefore, hc]),
        List.count_cons_of_ne (by simp)]
    | hole other =>
      cases hvalue : value? other with
      | none =>
        have hnone := hrest [] (by simp)
        rw [List.nil_append] at hnone
        simp only [Piece.filled, hvalue, Option.getD_none]
        rw [occurrences_append_placeholder name (hplain other (by simp)),
          occurrences_eq_zero name hbefore, hnone, List.count_cons]
        simp
      | some text =>
        have hname : Piece.hole other ≠ .hole name := by
          rintro ⟨⟩
          rw [hfree] at hvalue
          cases hvalue
        simp only [Piece.filled, hvalue, Option.getD_some]
        rw [← List.append_assoc, hrest _ (by simp [hbefore, hvalues other text hvalue]),
          List.count_cons_of_ne hname]

/-- Values without opening braces bring no placeholder into a flat template. -/
theorem occurrences_filled (value? : Text → Option Text) {name : Text} (hfree : value? name = none)
    (hvalues : ∀ other text, value? other = some text → CodePoint.ofChar '{' ∉ text) {t : Text}
    (hflat : IsFlat t) : occurrences name (filled value? t) = occurrences name t :=
  occurrences_joined value? hfree hvalues (pieces t) hflat
    (fun _ h ↦ isPlain_of_mem_pieces h) [] (by simp)

end Placeholder

end ApiTools
