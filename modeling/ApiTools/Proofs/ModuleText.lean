import ApiTools.Emission.Project
import ApiTools.Proofs.LiteralTexts

/-!
# The text at the start of a server

A generated server starts with a text in three quotes that names the title and the version of its
document as they are. The text ends where it is meant to, and nothing of the title and the version
is source, exactly if neither of them holds three quotes that no backslash takes along
(`docstring_closed_iff`).
-/

namespace ApiTools

namespace Literal

/-- The content of a text up to a place where no backslash waits for a code point. -/
inductive Paired : Text → Prop where
  | nil : Paired []
  | plain {c : CodePoint} {t : Text} : c ≠ '\\' → Paired t → Paired (c :: t)
  | escape {c : CodePoint} {t : Text} : Paired t → Paired (CodePoint.ofChar '\\' :: c :: t)

/-- The quotes stand somewhere in a content where no backslash takes them along. -/
def Closes (mark t : Text) : Prop :=
  ∃ before behind, Paired before ∧ t = before ++ (mark ++ behind)

section Content

variable {mark x rest : Text} {c : CodePoint}

/-- Quotes close a content behind a code point that is no backslash. -/
theorem Closes.plain (hc : c ≠ '\\') (h : Closes mark x) : Closes mark (c :: x) := by
  obtain ⟨before, behind, hpaired, rfl⟩ := h
  exact ⟨c :: before, behind, .plain hc hpaired, rfl⟩

/-- Quotes close a content behind a backslash and what it takes along. -/
theorem Closes.escape (h : Closes mark x) : Closes mark (CodePoint.ofChar '\\' :: c :: x) := by
  obtain ⟨before, behind, hpaired, rfl⟩ := h
  exact ⟨CodePoint.ofChar '\\' :: c :: before, behind, .escape hpaired, rfl⟩

/-- Quotes that begin in a text end in it as well if what follows is none of them. -/
theorem startsWith_append (hc : c ∉ mark)
    (h : Text.startsWith (x ++ c :: rest) mark = true) : ∃ behind, x = mark ++ behind := by
  obtain ⟨behind, hbehind⟩ := List.isPrefixOf_iff_prefix.mp h
  rcases List.append_eq_append_iff.mp hbehind with ⟨u, hu, _⟩ | ⟨u, hu, hrest⟩
  · exact ⟨u, hu⟩
  · cases u with
    | nil => exact ⟨[], by rw [hu, List.append_nil, List.append_nil]⟩
    | cons d u =>
      rw [List.cons_append, List.cons.injEq] at hrest
      exact absurd (hu ▸ List.mem_append_right x (hrest.1 ▸ List.mem_cons_self)) hc

/-- A content without closing quotes in it belongs to the content as a whole, with the code point
behind it. -/
theorem content?_append_cons (hlong : 1 < mark.length) (hslash : CodePoint.ofChar '\\' ∉ mark)
    (hc : Inside mark c) (h : ¬Closes mark x) :
    content? mark (x ++ c :: rest) = (content? mark rest).map fun r ↦ (x ++ c :: r.1, r.2) := by
  have hne : mark ≠ [] := List.ne_nil_of_length_pos (by omega)
  -- No quotes begin in what is still to be read and end behind it, for `c` is none of them.
  have hopen : ∀ y, ¬Closes mark y → Text.startsWith (y ++ c :: rest) mark = false := by
    intro y hy
    rw [Bool.eq_false_iff]
    intro hstart
    obtain ⟨behind, hbehind⟩ := startsWith_append hc.notMem hstart
    exact hy ⟨[], behind, .nil, hbehind⟩
  induction x using content?.induct mark with
  | case1 => exact content?_cons (hopen [] h) hc.slash hc.line
  | case2 d y hstart =>
    obtain ⟨behind, hbehind⟩ := List.isPrefixOf_iff_prefix.mp hstart
    exact absurd ⟨[], behind, .nil, hbehind.symm⟩ h
  | case3 => exact content?_escape hne hslash
  | case4 d y _ ih =>
    rw [List.cons_append, List.cons_append, content?_escape hne hslash, ih (mt .escape h),
      Option.map_map]
    rfl
  | case5 d y _ _ hline => exact absurd hline.1 (by omega)
  | case6 d y _ hd _ ih =>
    have hstart := hopen (d :: y) h
    rw [List.cons_append] at hstart ⊢
    rw [content?_cons hstart hd (by omega), ih (mt (.plain hd) h), Option.map_map]
    rfl

/-- Closing quotes end the content where they stand at the latest. -/
theorem content?_of_closes (hlong : 1 < mark.length) (hslash : CodePoint.ofChar '\\' ∉ mark)
    (h : Closes mark x) (rest : Text) :
    ∃ r, content? mark (x ++ rest) = some r ∧ r.1.length < x.length := by
  obtain ⟨before, behind, hpaired, rfl⟩ := h
  have hne : mark ≠ [] := List.ne_nil_of_length_pos (by omega)
  suffices hends : ∃ r, content? mark (before ++ (mark ++ behind) ++ rest) = some r ∧
      r.1.length ≤ before.length by
    obtain ⟨r, hr, hlength⟩ := hends
    refine ⟨r, hr, ?_⟩
    simp only [List.length_append]
    omega
  induction hpaired with
  | nil =>
    refine ⟨([], behind ++ rest), ?_, Nat.le_refl 0⟩
    rw [List.nil_append, List.append_assoc, content?_mark hne]
  | @plain c t hc _ ih =>
    obtain ⟨r, hr, hlength⟩ := ih
    rw [List.cons_append, List.cons_append]
    -- Quotes that start here already, inside of `before`, end the content sooner.
    cases hstart : Text.startsWith (c :: (t ++ (mark ++ behind) ++ rest)) mark with
    | true =>
      obtain ⟨u, hu⟩ := List.isPrefixOf_iff_prefix.mp hstart
      refine ⟨([], u), ?_, Nat.zero_le _⟩
      rw [← hu, content?_mark hne]
    | false =>
      refine ⟨(c :: r.1, r.2), ?_, Nat.succ_le_succ hlength⟩
      rw [content?_cons hstart hc (by omega), hr]
      rfl
  | @escape c t _ ih =>
    obtain ⟨r, hr, hlength⟩ := ih
    refine ⟨(CodePoint.ofChar '\\' :: c :: r.1, r.2), ?_, ?_⟩
    · rw [List.cons_append, List.cons_append, List.cons_append, List.cons_append,
        content?_escape hne hslash, hr]
      rfl
    · simp only [List.length_cons]
      omega

/-- Quotes of more than one code point are found in a content exactly if they close it. -/
theorem isSome_content?_iff (hlong : 1 < mark.length) (hslash : CodePoint.ofChar '\\' ∉ mark)
    (x : Text) : (content? mark x).isSome = true ↔ Closes mark x := by
  constructor
  · intro h
    induction x using content?.induct mark with
    | case1 => cases h
    | case2 c y hstart =>
      obtain ⟨behind, hbehind⟩ := List.isPrefixOf_iff_prefix.mp hstart
      exact ⟨[], behind, .nil, hbehind.symm⟩
    | case3 hstart =>
      rw [content?.eq_def] at h
      simp [hstart] at h
    | case4 c y _ ih =>
      rw [content?_escape (List.ne_nil_of_length_pos (by omega)) hslash, Option.isSome_map] at h
      exact .escape (ih h)
    | case5 c y _ _ hline => exact absurd hline.1 (by omega)
    | case6 c y hstart hc _ ih =>
      rw [content?_cons (by simpa using hstart) hc (by omega), Option.isSome_map] at h
      exact .plain hc (ih h)
  · intro h
    obtain ⟨r, hr, -⟩ := content?_of_closes hlong hslash h []
    rw [List.append_nil] at hr
    rw [hr]
    rfl

/-- A content without closing quotes in it and a text without backslashes and quotes behind it
belong to the content. -/
theorem content?_part (hlong : 1 < mark.length) (hslash : CodePoint.ofChar '\\' ∉ mark)
    {fixed : Text} (hfixed : fixed ≠ []) (hinside : ∀ d ∈ fixed, Inside mark d)
    (h : ¬Closes mark x) :
    content? mark (x ++ (fixed ++ rest)) =
      (content? mark rest).map fun r ↦ (x ++ (fixed ++ r.1), r.2) := by
  have hne : mark ≠ [] := List.ne_nil_of_length_pos (by omega)
  cases fixed with
  | nil => exact absurd rfl hfixed
  | cons c fixed =>
    rw [List.cons_append, content?_append_cons hlong hslash (hinside c List.mem_cons_self) h,
      content?_append hne fun d hd ↦ hinside d (List.mem_cons_of_mem c hd), Option.map_map]
    rfl

end Content

end Literal

namespace Emission

open Literal

/-- The quotes around the text at the start of a server. -/
def quotes : Text := "\"\"\""

instance (t : Text) : Decidable (Closes quotes t) :=
  decidable_of_iff _ (isSome_content?_iff (by decide) (by decide) t)

/-- What the text at the start of a server says between the two places of the title. -/
def generatedFrom : Text := " MCP server.\n\nGenerated by openapi-adapter from "

/-- What it says between the title and the version. -/
def ofVersion : Text := " (version "

/-- What it says behind the version. -/
def versionEnd : Text := ").\n"

/-- The text at the start of a server. -/
def moduleText (title version : Text) : Text :=
  title ++ (generatedFrom ++ (title ++ (ofVersion ++ (version ++ versionEnd))))

/-- A server starts with its text in three quotes. -/
theorem exists_serverFile (c : Content) :
    ∃ behind, serverFile c = quotes ++ (moduleText c.title c.version ++ (quotes ++ behind)) := by
  have hclose : (").\n\"\"\"\n\n" : Text) = versionEnd ++ (quotes ++ "\n\n") := by decide
  rw [serverFile, serverHead, moduleText, hclose]
  simp only [List.append_assoc]
  exact ⟨_, rfl⟩

/-- What a server says between the names belongs to its text. -/
private theorem inside_quotes {t : Text}
    (h : (t.all fun d ↦ !quotes.contains d && d != CodePoint.ofChar '\\') = true) :
    ∀ d ∈ t, Inside quotes d := by
  intro d hd
  obtain ⟨hmark, hslash⟩ : d ∉ quotes ∧ d ≠ '\\' := by
    simpa using List.all_eq_true.mp h d hd
  exact ⟨hmark, hslash, nofun⟩

/-- Reading the text from its first quotes ends at the quotes behind the version exactly if neither
the title nor the version closes it. -/
theorem content?_moduleText_iff (title version behind : Text) :
    content? quotes (moduleText title version ++ (quotes ++ behind)) =
        some (moduleText title version, behind) ↔
      ¬Closes quotes title ∧ ¬Closes quotes version := by
  have hslash : CodePoint.ofChar '\\' ∉ quotes := by decide
  have hlong : 1 < quotes.length := by decide
  have hparts : moduleText title version ++ (quotes ++ behind) =
      title ++ (generatedFrom ++ (title ++ (ofVersion ++ (version ++ (versionEnd
        ++ (quotes ++ behind)))))) := by
    simp only [moduleText, List.append_assoc]
  rw [hparts]
  by_cases htitle : Closes quotes title
  · obtain ⟨r, hr, hlength⟩ := content?_of_closes hlong hslash htitle (generatedFrom ++
      (title ++ (ofVersion ++ (version ++ (versionEnd ++ (quotes ++ behind))))))
    refine iff_of_false (fun h ↦ ?_) fun h ↦ h.1 htitle
    rw [hr, Option.some.injEq] at h
    have hwhole : r.1.length = (moduleText title version).length := by rw [h]
    rw [moduleText, List.length_append] at hwhole
    omega
  · rw [content?_part hlong hslash (by decide) (inside_quotes (by decide)) htitle,
      content?_part hlong hslash (by decide) (inside_quotes (by decide)) htitle, Option.map_map]
    by_cases hversion : Closes quotes version
    · obtain ⟨r, hr, hlength⟩ :=
        content?_of_closes hlong hslash hversion (versionEnd ++ (quotes ++ behind))
      refine iff_of_false (fun h ↦ ?_) fun h ↦ h.2 hversion
      rw [hr, Option.map_some, Option.some.injEq, Prod.mk.injEq] at h
      have hwhole := congrArg List.length h.1
      simp only [moduleText, Function.comp_apply, List.length_append] at hwhole
      omega
    · rw [content?_part hlong hslash (by decide) (inside_quotes (by decide)) hversion,
        content?_mark (by decide)]
      refine iff_of_true ?_ ⟨htitle, hversion⟩
      simp only [Option.map_some, Function.comp_apply, List.append_nil, moduleText]

section Names

variable {document : Document} {tools : List Tool} {baseUrl : Text} {timeout : Seconds}
  {c : Content}

/-- A project is called what its document is called. -/
theorem names_of_content (h : content document tools baseUrl timeout = .ok c) :
    c.title = document.info.title ∧ c.version = document.info.version ∧
      c.projectName = packageName document.info.title := by
  simp only [content, bind, Except.bind, pure, Except.pure] at h
  split at h
  · cases h
  · cases h
    exact ⟨rfl, rfl, rfl⟩

/-- A server starts with a text in three quotes. Reading it from the first of them ends at the last
of them exactly if neither the title nor the version of the document closes it, and then no part of
those names is read as source. -/
theorem docstring_closed_iff (h : content document tools baseUrl timeout = .ok c) :
    ∃ behind,
      serverFile c =
          quotes ++ (moduleText document.info.title document.info.version ++ (quotes ++ behind)) ∧
      (content? quotes
            (moduleText document.info.title document.info.version ++ (quotes ++ behind)) =
          some (moduleText document.info.title document.info.version, behind) ↔
        ¬Closes quotes document.info.title ∧ ¬Closes quotes document.info.version) := by
  obtain ⟨behind, hbehind⟩ := exists_serverFile c
  obtain ⟨htitle, hversion, -⟩ := names_of_content h
  rw [htitle, hversion] at hbehind
  exact ⟨behind, hbehind, content?_moduleText_iff _ _ behind⟩

end Names

/-- A document without paths, under some names. -/
def namedDocument (title version : Text) : Document where
  version := "3.0.0"
  info := ⟨title, version, none⟩
  servers := []
  paths := []
  components := []

/-- What the project for a document without paths says. -/
def namedContent (title version : Text) : Content where
  title := title
  version := version
  description := []
  projectName := packageName title
  baseUrl := []
  timeout := .whole 30
  functions := []

/-- Names with two quotes in a row and a backslash at their end leave the text closed. -/
theorem docstring_closed_quoted :
    content (namedDocument "A \"\"quoted\"\" title\\" "1\\\"") [] [] (.whole 30) =
        .ok (namedContent "A \"\"quoted\"\" title\\" "1\\\"") ∧
      ∃ behind,
        serverFile (namedContent "A \"\"quoted\"\" title\\" "1\\\"") =
            quotes ++ (moduleText "A \"\"quoted\"\" title\\" "1\\\"" ++ (quotes ++ behind)) ∧
        content? quotes (moduleText "A \"\"quoted\"\" title\\" "1\\\"" ++ (quotes ++ behind)) =
          some (moduleText "A \"\"quoted\"\" title\\" "1\\\"", behind) := by
  have hcontent : content (namedDocument "A \"\"quoted\"\" title\\" "1\\\"") [] [] (.whole 30) =
      .ok (namedContent "A \"\"quoted\"\" title\\" "1\\\"") := rfl
  obtain ⟨behind, hfile, hclosed⟩ := docstring_closed_iff hcontent
  exact ⟨hcontent, behind, hfile, hclosed.mpr (by decide +kernel)⟩

/-- Three quotes in a title end the text at once, and what follows them is read as source. -/
theorem docstring_left :
    content (namedDocument "\"\"\"; print(1); \"\"\"" "1") [] [] (.whole 30) =
        .ok (namedContent "\"\"\"; print(1); \"\"\"" "1") ∧
      ∃ source,
        serverFile (namedContent "\"\"\"; print(1); \"\"\"" "1") =
            quotes ++ (quotes ++ ("; print(1); " ++ source)) ∧
        content? quotes (quotes ++ ("; print(1); " ++ source)) =
          some ([], "; print(1); " ++ source) := by
  refine ⟨rfl, ?_⟩
  obtain ⟨behind, hbehind⟩ := exists_serverFile (namedContent "\"\"\"; print(1); \"\"\"" "1")
  exact ⟨_, hbehind, content?_mark (by decide) _⟩

end Emission

end ApiTools
