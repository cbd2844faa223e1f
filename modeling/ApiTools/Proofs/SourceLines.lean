import Mathlib.Data.List.Forall2
import ApiTools.Emission.Project
import ApiTools.Proofs.LiteralTexts
import ApiTools.Proofs.SplitTexts

/-!
# Lines of source

Source is read line by line: lines that each end with a line end are found again before any text
(`splitOn_ended`), and blocks of them are told apart by two blank lines (`blocks_append`). In a line
a fixed piece may stand before what is read (`behind?`), and one behind it (`between?`, `quoted?`).
-/

namespace ApiTools

namespace Emission

section Pieces

variable {before after line t : Text}

/-- What stands behind a fixed piece of source. -/
def behind? (piece t : Text) : Option Text :=
  if t.startsWith piece then some (t.drop piece.length) else none

/-- What stands in a line between two fixed pieces. -/
def between? (before after line : Text) : Option Text :=
  (behind? before line).bind fun t ↦
    if t.endsWith after then some (t.take (t.length - after.length)) else none

/-- The text whose literal stands between two fixed pieces, and what stands behind them. -/
def literal? (before after t : Text) : Option (Text × Text) := do
  let (t, rest) ← Literal.text? (← behind? before t)
  return (t, ← behind? after rest)

/-- The text whose literal stands in a line between two fixed pieces. -/
def quoted? (before after line : Text) : Option Text := do
  let (t, rest) ← literal? before after line
  if rest = [] then some t else none

/-- What stands behind a piece is found. -/
theorem behind?_append (piece rest : Text) : behind? piece (piece ++ rest) = some rest := by
  have hstart : (piece ++ rest).startsWith piece = true := by
    rw [Text.startsWith, List.isPrefixOf_iff_prefix]
    exact List.prefix_append piece rest
  rw [behind?, if_pos hstart, List.drop_left]

/-- A text ends with what stands last in it. -/
theorem endsWith_append (t after : Text) : (t ++ after).endsWith after = true := by
  rw [Text.endsWith, List.isSuffixOf_iff_suffix]
  exact List.suffix_append t after

/-- What stands between two pieces is found. -/
theorem between?_append (before t after : Text) :
    between? before after (before ++ (t ++ after)) = some t := by
  rw [between?, behind?_append, Option.bind_some, if_pos (endsWith_append t after),
    List.length_append, Nat.add_sub_cancel, List.take_left]

/-- The text of a literal between two pieces is found, with what stands behind them. -/
theorem literal?_append (before t : Text) {rest : Text} (hafter : Literal.Ended (after ++ rest)) :
    literal? before after (before ++ (Literal.text t ++ (after ++ rest))) = some (t, rest) := by
  rw [literal?, behind?_append]
  simp only [bind, Option.bind, Literal.text?_text t hafter, behind?_append, pure]

/-- The text of a literal between two pieces is found in their line. -/
theorem quoted?_append (before t : Text) (hafter : Literal.Ended after) :
    quoted? before after (before ++ (Literal.text t ++ after)) = some t := by
  have hread := @literal?_append after before t [] (by rwa [List.append_nil])
  rw [List.append_nil] at hread
  rw [quoted?, hread]
  rfl

end Pieces

section Lines

variable {c : CodePoint} {t u : Text} {ls : List Text}

/-- Texts as lines, each with its end. -/
def ended (ls : List Text) : Text := ls.flatMap fun l ↦ l ++ "\n"

/-- The lines of a template are texts, each with its end. -/
theorem lines_eq_ended (ls : List String) : lines ls = ended (ls.map Text.ofString) := by
  rw [lines, ended, List.flatMap_map]

/-- Line ends before each of some texts, and one behind them, are one before them and one behind
each of them. -/
theorem flatMap_newline {α : Type} (f : α → Text) (l : List α) :
    (l.flatMap fun a ↦ ("\n" : Text) ++ f a) ++ "\n" = ("\n" : Text) ++ ended (l.map f) := by
  induction l with
  | nil => rfl
  | cons a rest ih =>
    rw [List.flatMap_cons, List.append_assoc, ih]
    simp only [ended, List.map_cons, List.flatMap_cons, List.append_assoc]

/-- A line is found again. -/
theorem splitOn_line (ht : CodePoint.ofChar '\n' ∉ t) (u : Text) :
    Text.splitOn '\n' (t ++ ("\n" ++ u)) = t :: Text.splitOn '\n' u :=
  Text.splitOn_append_cons ht u

/-- Lines are found again before any text. -/
theorem splitOn_ended (hls : ∀ l ∈ ls, CodePoint.ofChar '\n' ∉ l) (u : Text) :
    Text.splitOn '\n' (ended ls ++ u) = ls ++ Text.splitOn '\n' u := by
  induction ls with
  | nil => rfl
  | cons l ls ih =>
    obtain ⟨hl, hrest⟩ := List.forall_mem_cons.mp hls
    rw [ended, List.flatMap_cons, List.append_assoc, List.append_assoc, splitOn_line hl, ← ended,
      ih hrest]
    rfl

/-- The lines of a template are found again before any text. -/
theorem splitOn_lines {ls : List String} (hls : ∀ l ∈ ls, CodePoint.ofChar '\n' ∉ Text.ofString l)
    (u : Text) :
    Text.splitOn '\n' (lines ls ++ u) = ls.map Text.ofString ++ Text.splitOn '\n' u := by
  rw [lines_eq_ended, splitOn_ended (List.forall_mem_map.mpr hls)]

/-- The texts of strings are those of the characters that they are made of. -/
theorem map_ofString {ls : List String} {spellings : List (List Char)}
    (h : List.Forall₂ (fun s cs ↦ s = String.ofList cs) ls spellings) :
    ls.map Text.ofString = spellings.map (List.map CodePoint.ofChar) := by
  induction h with
  | nil => rfl
  | cons hline _ ih => rw [List.map_cons, List.map_cons, ih, hline, Text.ofString_ofList]

/-- No line end is among the texts of strings if none is among their characters. -/
theorem notMem_newline_of_spelled {ls : List String} {spellings : List (List Char)}
    (h : List.Forall₂ (fun s cs ↦ s = String.ofList cs) ls spellings)
    (hchars : ∀ cs ∈ spellings, 0x0A ∉ cs.map Char.toNat) :
    ∀ t ∈ ls.map Text.ofString, CodePoint.ofChar '\n' ∉ t := by
  rw [map_ofString h, List.forall_mem_map]
  intro cs hcs hmem
  obtain ⟨d, hd, heq⟩ := List.mem_map.mp hmem
  exact hchars cs hcs (List.mem_map.mpr ⟨d, hd, congrArg CodePoint.val heq⟩)

/-- Lines behind two blank ones are found again before any text. -/
theorem splitOn_block {ls : List String} (hls : ∀ t ∈ ls.map Text.ofString,
    CodePoint.ofChar '\n' ∉ t) (u : Text) :
    Text.splitOn '\n' (lines ("" :: "" :: ls) ++ u) =
      [] :: [] :: (ls.map Text.ofString ++ Text.splitOn '\n' u) := by
  have hblank : CodePoint.ofChar '\n' ∉ Text.ofString "" := List.not_mem_nil
  have hall : ∀ l ∈ "" :: "" :: ls, CodePoint.ofChar '\n' ∉ Text.ofString l :=
    List.forall_mem_cons.mpr ⟨hblank, List.forall_mem_cons.mpr
      ⟨hblank, fun l hl ↦ hls _ (List.mem_map_of_mem hl)⟩⟩
  rw [splitOn_lines hall]
  rfl

/-- What is in neither of two texts is not in both together. -/
theorem notMem_append (ht : c ∉ t) (hu : c ∉ u) : c ∉ t ++ u :=
  fun h ↦ (List.mem_append.mp h).elim ht hu

end Lines

section Blocks

/-- Lines in blocks, with two blank lines between them. -/
def blocks : List Text → List (List Text)
  | [] => [[]]
  | [] :: [] :: rest => [] :: blocks rest
  | line :: rest =>
    match blocks rest with
    | [] => [[line]]
    | block :: others => (line :: block) :: others

/-- Lines without two blank ones in a row, the last of them not being blank. -/
def IsBlock : List Text → Prop
  | [] => True
  | [line] => line ≠ []
  | line :: next :: rest => (line ≠ [] ∨ next ≠ []) ∧ IsBlock (next :: rest)

instance decidableIsBlock : (ls : List Text) → Decidable (IsBlock ls)
  | [] => isTrue trivial
  | [line] => inferInstanceAs (Decidable (line ≠ []))
  | line :: next :: rest =>
    have := decidableIsBlock (next :: rest)
    inferInstanceAs (Decidable ((line ≠ [] ∨ next ≠ []) ∧ IsBlock (next :: rest)))

/-- Lines none of which is blank are a block. -/
theorem isBlock_of_forall {block : List Text} (h : ∀ line ∈ block, line ≠ []) : IsBlock block := by
  match block with
  | [] => trivial
  | [line] => exact h line List.mem_cons_self
  | line :: next :: rest =>
    obtain ⟨hline, hrest⟩ := List.forall_mem_cons.mp h
    exact ⟨.inl hline, isBlock_of_forall hrest⟩

/-- A line that does not end a block belongs to the first one. -/
private theorem blocks_cons {line : Text} {rest block : List Text} {others : List (List Text)}
    (hline : line = [] → rest.head? ≠ some []) (hrest : blocks rest = block :: others) :
    blocks (line :: rest) = (line :: block) :: others := by
  rw [blocks.eq_def]
  split
  · next h => cases h
  · next h =>
    cases h
    exact absurd rfl (hline rfl)
  · next h =>
    cases h
    rw [hrest]

/-- A block is found again before two blank lines. -/
theorem blocks_append {block : List Text} (h : IsBlock block) (rest : List Text) :
    blocks (block ++ [] :: [] :: rest) = block :: blocks rest := by
  match block with
  | [] => rfl
  | [line] => exact blocks_cons (fun hline ↦ absurd hline h) rfl
  | line :: next :: more =>
    refine blocks_cons (fun hline hnext ↦ ?_) (blocks_append h.2 rest)
    exact h.1.elim (absurd hline) (absurd (Option.some.inj hnext))

/-- Blocks are found again between two blank lines each. -/
theorem blocks_flatMap {α : Type} {f : α → List Text} {l : List α} {block : List Text}
    (hblock : IsBlock block) (hl : ∀ a ∈ l, IsBlock (f a)) (rest : List Text) :
    blocks (block ++ ((l.flatMap fun a ↦ [] :: [] :: f a) ++ [] :: [] :: rest)) =
      block :: (l.map f ++ blocks rest) := by
  induction l generalizing block with
  | nil => exact blocks_append hblock rest
  | cons a others ih =>
    obtain ⟨ha, hothers⟩ := List.forall_mem_cons.mp hl
    rw [List.flatMap_cons, List.append_assoc, List.cons_append, List.cons_append,
      blocks_append hblock, ih ha hothers]
    rfl

/-- The lines of blocks are among those that are told apart. -/
theorem subset_of_mem_blocks {ls : List Text} : ∀ block ∈ blocks ls, block ⊆ ls := by
  induction ls using blocks.induct with
  | case1 => exact List.forall_mem_singleton.mpr (List.nil_subset [])
  | case2 rest ih =>
    refine List.forall_mem_cons.mpr ⟨List.nil_subset _, fun block hblock ↦ ?_⟩
    exact List.Subset.trans (ih block hblock)
      (List.subset_cons_of_subset _ (List.subset_cons_self _ rest))
  | case3 line rest h hnone ih =>
    rw [blocks.eq_3 _ _ h, hnone]
    exact List.forall_mem_singleton.mpr (List.cons_subset_cons line (List.nil_subset rest))
  | case4 line rest h block others hblocks ih =>
    rw [hblocks, List.forall_mem_cons] at ih
    rw [blocks.eq_3 _ _ h, hblocks]
    refine List.forall_mem_cons.mpr ⟨List.cons_subset_cons line ih.1, fun other hother ↦ ?_⟩
    exact List.subset_cons_of_subset line (ih.2 other hother)

end Blocks

end Emission

end ApiTools
