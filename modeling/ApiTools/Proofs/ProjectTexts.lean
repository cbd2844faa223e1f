import ApiTools.Proofs.EmittedPrograms
import ApiTools.Proofs.ModuleText
import ApiTools.Proofs.ProjectNames

/-!
# Which files of a project UTF-8 can write

The package description and the list of files to ignore can be written always. The server holds the
title and the version as they are and everything else as literals or identifiers, so it has a
surrogate exactly if one of those two does (`isClean_serverFile_iff`). The page holds more texts as
they are: the description, the base URL and what it says about each tool (`isClean_pageFile_iff`).
-/

namespace ApiTools

namespace Emission

open Text (IsClean isClean_append_iff isClean_flatMap isClean_flatMap_iff isClean_join
  isClean_ofString)

/-- The texts that a server holds as they are, in its first lines. -/
def serverTexts (c : Content) : List Text := [c.title, c.version]

/-- The texts that a page holds as they are. -/
def pageTexts (c : Content) : List Text :=
  serverTexts c ++ [c.description, c.baseUrl] ++
    c.functions.flatMap fun f ↦ [f.tool.id, f.tool.method, f.tool.path]

section Files

variable {document : Document} {tools : List Tool} {baseUrl : Text} {timeout : Seconds}
  {c : Content}

/-- The lines of a template hold no surrogate. -/
theorem isClean_lines (ls : List String) : (lines ls).IsClean :=
  isClean_flatMap (fun _ ↦ isClean_append_iff.mpr ⟨isClean_ofString _, isClean_ofString _⟩) ls

private theorem isClean_argumentLine {a : Argument} (hname : IsIdentifier a.identifier)
    (htype : IsType a.annotation) : (argumentLine a).IsClean := by
  have hmissing : IsClean (if a.required then [] else " = None") := by
    split <;> decide
  simp only [argumentLine, isClean_append_iff, isClean_ofString, hname.isShown.isClean,
    htype.shown.isClean, hmissing, and_self]

private theorem isClean_collectLines {a : Argument} (hname : IsIdentifier a.identifier) :
    (collectLines a).IsClean := by
  simp only [collectLines, isClean_append_iff, isClean_ofString, hname.isShown.isClean,
    Literal.isClean_text, and_self]

private theorem isClean_toolFunction (h : content document tools baseUrl timeout = .ok c)
    {f : Function} (hf : f ∈ c.functions) : (toolFunction f).IsClean := by
  obtain ⟨hname, harguments⟩ := signature_of_content h f hf
  have hlines : IsClean (f.arguments.flatMap argumentLine) := isClean_flatMap_iff.mpr fun a ha ↦
    isClean_argumentLine (harguments a ha).1 (harguments a ha).2
  have hcollected : IsClean ((collected f.arguments).flatMap collectLines) := by
    refine isClean_flatMap_iff.mpr fun a ha ↦ ?_
    exact isClean_collectLines (harguments a ((collected_perm f.arguments).mem_iff.mp ha)).1
  simp only [toolFunction, isClean_append_iff, isClean_ofString, Literal.isClean_text,
    hname.isShown.isClean, hlines, hcollected, and_self]

private theorem isClean_definitions (c : Content) : (definitions c).IsClean := by
  have hentry : ∀ f, (definitionEntry f).IsClean := by
    intro f
    simp only [definitionEntry, isClean_append_iff, isClean_ofString, Literal.isClean_text,
      Literal.isClean_value, and_self]
  simp only [definitions, isClean_append_iff, isClean_ofString, isClean_flatMap hentry, and_self]

private theorem isClean_serverSettings (c : Content) : (serverSettings c).IsClean := by
  simp only [serverSettings, isClean_append_iff, isClean_ofString, Literal.isClean_text, and_self]

/-- The server has a surrogate exactly if one of the texts does that it holds as they are. -/
theorem isClean_serverFile_iff (h : content document tools baseUrl timeout = .ok c) :
    (serverFile c).IsClean ↔ ∀ t ∈ serverTexts c, t.IsClean := by
  have hfunctions : IsClean (c.functions.flatMap toolFunction) :=
    isClean_flatMap_iff.mpr fun f hf ↦ isClean_toolFunction h hf
  have hhead : (serverHead c).IsClean ↔ ∀ t ∈ serverTexts c, t.IsClean := by
    simp only [serverHead, serverTexts, isClean_append_iff, isClean_ofString, isClean_lines,
      List.forall_mem_cons]
    tauto
  simp only [serverFile, isClean_append_iff, hhead, isClean_serverSettings, isClean_definitions,
    hfunctions, callFunction, serverTail, isClean_lines, and_true]

private theorem isClean_quotedValue (t : Text) : (quotedValue t).IsClean := by
  refine isClean_flatMap_iff.mpr fun d hd ↦ ?_
  unfold escapeMarkup
  split
  · exact (Json.isAscii_numericEscape d).isClean
  · exact List.forall_mem_singleton.mpr ((Json.isAscii_quote t).isClean d hd)

/-- The package description holds no surrogate. -/
theorem isClean_packageFile (h : content document tools baseUrl timeout = .ok c) :
    (packageFile c).IsClean := by
  have hname : c.projectName.IsClean := by
    rw [(names_of_content h).2.2]
    intro d hd
    have hlt := lt_of_isNameChar (isNameChar_of_mem_packageName _ d hd)
    exact CodePoint.isSurrogate_eq_false_iff.mpr (.inl (by omega))
  have hcommand : (c.projectName.replace "_" "-").IsClean :=
    Text.isClean_replace hname _ (isClean_ofString _)
  simp only [packageFile, isClean_append_iff, isClean_ofString, isClean_lines, isClean_quotedValue,
    hname, hcommand, and_self]

private theorem isClean_descriptionPart_iff (c : Content) :
    (descriptionPart c).IsClean ↔ c.description.IsClean := by
  unfold descriptionPart
  split
  · next hnone =>
    rw [hnone]
  · simp only [isClean_append_iff, isClean_ofString, true_and, and_true]

private theorem isClean_toolLine_iff (f : Function) : (toolLine f).IsClean ↔
    ∀ t ∈ [f.tool.id, f.tool.method, f.tool.path], t.IsClean := by
  simp only [toolLine, Tool.operation, isClean_append_iff, isClean_ofString, List.forall_mem_cons,
    List.not_mem_nil, IsEmpty.forall_iff, implies_true, true_and, and_true]

private theorem isClean_timeout (timeout : Seconds) : timeout.text.IsClean := by
  cases timeout with
  | whole i => exact (Text.isAscii_ofInt i).isClean
  | double x => exact (Double.isAscii_render (by decide) (by decide) x).isClean

/-- The page has a surrogate exactly if one of the texts does that it holds as they are. -/
theorem isClean_pageFile_iff (c : Content) :
    (pageFile c).IsClean ↔ ∀ t ∈ pageTexts c, t.IsClean := by
  have htools : IsClean (c.functions.flatMap toolLine) ↔
      ∀ t ∈ c.functions.flatMap (fun f ↦ [f.tool.id, f.tool.method, f.tool.path]), t.IsClean := by
    rw [isClean_flatMap_iff, List.forall_mem_flatMap]
    exact forall₂_congr fun f _ ↦ isClean_toolLine_iff f
  -- The equation of the page is too long to be made.
  delta pageFile
  simp only [pageTexts, serverTexts, isClean_append_iff, isClean_ofString, isClean_lines, htools,
    isClean_descriptionPart_iff, isClean_timeout, List.forall_mem_append, List.forall_mem_cons,
    true_and, and_true]
  tauto

end Files

end Emission

end ApiTools
