import ApiTools.Proofs.ModuleText
import ApiTools.Proofs.ProjectNames
import ApiTools.Proofs.QuotedValues
import ApiTools.Proofs.SourceLines

/-!
# What a package description says

The table about a project starts with the lines of its name, its version and its description
(`exists_tableLines`), whatever these are. The name is read back always, but it is one that an
installer takes only if it does not end in an underscore (`project_name_read_back`). The version and
the description are read back as what the document says exactly if the document's texts stay in the
basic plane; the value of another one is no text at all (`package_texts_read_back`).
-/

namespace ApiTools

namespace Emission

open Toml (tableLines text? basicString?)

/-- What a project is said to be in its package description. -/
def projectSummary (title : Text) : Text :=
  "MCP server generated from the " ++ title ++ " OpenAPI document"

section Lines

variable {c : CodePoint} {t u : Text}

/-- No escape by number ends a line. -/
theorem notMem_numericEscape (c : CodePoint) : CodePoint.ofChar '\n' ∉ Json.numericEscape c := by
  have hdigits : ∀ n, CodePoint.ofChar '\n' ∉ Text.hexDigits 4 n := by
    intro n hmem
    have hinside : Literal.Inside ['"'] '\n' :=
      Literal.inside_of_mem_hexDigits (by decide) hmem
    exact (hinside.line rfl).1 rfl
  unfold Json.numericEscape
  split
  · exact notMem_append (by decide) (hdigits _)
  · exact notMem_append (notMem_append (notMem_append (by decide) (hdigits _)) (by decide))
      (hdigits _)

/-- No quoted value ends a line. -/
theorem notMem_quotedValue (t : Text) : CodePoint.ofChar '\n' ∉ quotedValue t := by
  have hchar : ∀ c, CodePoint.ofChar '\n' ∉ quotedChar c := by
    intro c
    rcases quotedChar_cases c with ⟨e, htext, he, -⟩ | htext | ⟨htext, -, -, hlow, -⟩
    · have hnone : Toml.shortEscapes.lookup (CodePoint.ofChar '\n') = none := by decide
      have hletter : CodePoint.ofChar '\n' ≠ e := by
        rintro rfl
        rw [hnone] at he
        cases he
      simp only [htext, List.mem_cons, List.not_mem_nil, or_false, not_or]
      exact ⟨by decide, hletter⟩
    · rw [htext]
      exact notMem_numericEscape c
    · rw [htext, List.mem_singleton]
      rintro rfl
      exact absurd hlow (by decide)
  rw [quotedValue_eq, List.mem_cons, List.mem_append, List.mem_flatMap, not_or, not_or]
  exact ⟨by decide, fun ⟨c, _, hmem⟩ ↦ hchar c hmem, by decide⟩

/-- The lines of a package description up to the name of the project. -/
private def projectHead : List String :=
  ["[build-system]", "requires = [\"setuptools>=61.0\"]",
    "build-backend = \"setuptools.build_meta\"", "", "[project]"]

/-- The table about a project starts with its name, its version and what it is. -/
theorem exists_tableLines {c : Content} (hname : CodePoint.ofChar '\n' ∉ c.projectName) :
    ∃ more, tableLines "project" (packageFile c) =
      ("name = \"" ++ c.projectName ++ "\"") :: ("version = " ++ quotedValue c.version) ::
        ("description = " ++ quotedValue (projectSummary c.title)) :: more := by
  obtain ⟨rest, hfile⟩ : ∃ rest, packageFile c = lines projectHead ++
      (("name = \"" ++ c.projectName ++ "\"") ++ ("\n" ++
        (("version = " ++ quotedValue c.version) ++ ("\n" ++
          (("description = " ++ quotedValue (projectSummary c.title)) ++ ("\n" ++ rest)))))) := by
    have hend : ("\"\n" : Text) = "\"" ++ "\n" := rfl
    simp only [packageFile, hend, List.append_assoc]
    exact ⟨_, rfl⟩
  have hquoted : ∀ key t : Text, CodePoint.ofChar '\n' ∉ key →
      CodePoint.ofChar '\n' ∉ key ++ quotedValue t := fun key t hkey ↦
    notMem_append hkey (notMem_quotedValue t)
  rw [tableLines, hfile, splitOn_lines (by decide), splitOn_line, splitOn_line, splitOn_line]
  · exact ⟨_, rfl⟩
  · exact hquoted _ _ (by decide)
  · exact hquoted _ _ (by decide)
  · exact notMem_append (notMem_append (by decide) hname) (by decide)

end Lines

section Values

variable {c : Content}

/-- What names of projects are made of stands for itself in a basic string. -/
theorem isPlain_of_isNameChar {d : CodePoint} (h : isNameChar d = true) :
    Toml.isPlain d = true := by
  have hascii : ∀ n (hn : n < 0x80), isNameChar ⟨n, by omega⟩ = true →
      Toml.isPlain ⟨n, by omega⟩ = true := by decide
  exact hascii d.val (lt_of_isNameChar h) h

private theorem text?_name (hname : ∀ d ∈ c.projectName, isNameChar d = true) :
    text? "project" "name" (packageFile c) = some c.projectName := by
  obtain ⟨more, hlines⟩ := exists_tableLines (c := c) fun h ↦ absurd (hname _ h) (by decide)
  rw [text?, Toml.valueText?, hlines]
  exact Toml.basicString?_plain fun d hd ↦ isPlain_of_isNameChar (hname d hd)

private theorem text?_version (hname : CodePoint.ofChar '\n' ∉ c.projectName) :
    text? "project" "version" (packageFile c) =
      if c.version.InBasicPlane then some c.version else none := by
  obtain ⟨more, hlines⟩ := exists_tableLines hname
  rw [text?, Toml.valueText?, hlines]
  exact Toml.basicString?_quotedValue c.version

private theorem text?_description (hname : CodePoint.ofChar '\n' ∉ c.projectName) :
    text? "project" "description" (packageFile c) =
      if (projectSummary c.title).InBasicPlane then some (projectSummary c.title) else none := by
  obtain ⟨more, hlines⟩ := exists_tableLines hname
  rw [text?, Toml.valueText?, hlines]
  exact Toml.basicString?_quotedValue (projectSummary c.title)

/-- What surrounds the title of a project is in the basic plane. -/
theorem inBasicPlane_projectSummary (title : Text) :
    (projectSummary title).InBasicPlane ↔ title.InBasicPlane := by
  simp only [projectSummary, Text.InBasicPlane, List.forall_mem_append]
  exact ⟨fun h ↦ h.1.2, fun h ↦ ⟨⟨by decide, h⟩, by decide⟩⟩

variable {document : Document} {tools : List Tool} {baseUrl : Text} {timeout : Seconds}

/-- The name in the description of a package is that of the document's title, made of lower-case
letters, digits and underscores with a letter at its start, and the project is an entry of the
output directory. An installer takes the name exactly if it ends in a letter or digit, which is left
to the title: it has to be empty or to end in a letter or digit of ASCII or in the Kelvin sign. -/
theorem project_name_read_back (h : content document tools baseUrl timeout = .ok c)
    (output : Text) :
    text? "project" "name" (packageFile c) = some (packageName document.info.title) ∧
    (∀ d ∈ packageName document.info.title, isNameChar d = true) ∧
    (packageName document.info.title).head?.any CodePoint.isAsciiLower = true ∧
    Files.IsEntry (projectDirectory output document.info.title) output ∧
    (isProjectName (packageName document.info.title) = true ↔
      (packageName document.info.title).getLast?.any CodePoint.isLowerOrDigit = true) ∧
    ((packageName document.info.title).getLast?.any CodePoint.isLowerOrDigit = true ↔
      document.info.title = [] ∨
        document.info.title.getLast?.any CodePoint.lowersToAscii = true) := by
  have hchars := isNameChar_of_mem_packageName document.info.title
  obtain ⟨-, -, hcalled⟩ := names_of_content h
  have hname := text?_name (hcalled ▸ hchars)
  rw [hcalled] at hname
  refine ⟨hname, hchars, (packageName_cases _).1,
    isEntry_projectDirectory output _, ?_, getLast?_packageName _⟩
  rw [isProjectName_packageName]

/-- Code points of a title with a longer lower case change the name but not where it ends. -/
theorem project_name_read_back_dotted :
    content (namedDocument "İstanbul & Co. v2" "1") [] [] (.whole 30) =
        .ok (namedContent "İstanbul & Co. v2" "1") ∧
      text? "project" "name" (packageFile (namedContent "İstanbul & Co. v2" "1")) =
        some (Text.ofString "i_stanbul___co__v2") ∧
      Files.IsEntry (projectDirectory "out/" "İstanbul & Co. v2") "out/" ∧
      isProjectName "i_stanbul___co__v2" = true := by
  have hcontent : content (namedDocument "İstanbul & Co. v2" "1") [] [] (.whole 30) =
      .ok (namedContent "İstanbul & Co. v2" "1") := rfl
  have hname : packageName (namedDocument "İstanbul & Co. v2" "1").info.title =
      "i_stanbul___co__v2" := by decide +kernel
  obtain ⟨hread, -, -, hentry, hvalid, hend⟩ := project_name_read_back hcontent "out/"
  rw [hname] at hread hvalid hend
  exact ⟨hcontent, hread, hentry, hvalid.mpr (hend.mpr (by decide))⟩

/-- A title that ends in a sign gives a name that no project may have. -/
theorem unfinished_project_name :
    text? "project" "name" (packageFile (namedContent "Pet Store!" "1")) =
        some (Text.ofString "pet_store_") ∧
      packageName "Pet Store!" = "pet_store_" ∧ isProjectName "pet_store_" = false := by
  have hname : packageName "Pet Store!" = "pet_store_" := by decide +kernel
  have hread := text?_name (c := namedContent "Pet Store!" "1")
    (isNameChar_of_mem_packageName "Pet Store!")
  exact ⟨hread.trans (congrArg some hname), hname, by decide⟩

/-- The version and the description of a package are read back as the texts of the document exactly
if these stay in the basic plane; they are no texts else. -/
theorem package_texts_read_back (h : content document tools baseUrl timeout = .ok c) :
    text? "project" "version" (packageFile c) =
        (if document.info.version.InBasicPlane then some document.info.version else none) ∧
      text? "project" "description" (packageFile c) =
        if document.info.title.InBasicPlane then some (projectSummary document.info.title)
        else none := by
  obtain ⟨htitle, hversion, hcalled⟩ := names_of_content h
  have hname : CodePoint.ofChar '\n' ∉ c.projectName := by
    rw [hcalled]
    exact fun hmem ↦ absurd (isNameChar_of_mem_packageName _ _ hmem) (by decide)
  have hdescription := text?_description hname
  simp only [inBasicPlane_projectSummary] at hdescription
  rw [text?_version hname, hdescription, htitle, hversion]
  exact ⟨rfl, rfl⟩

/-- Signs of markup, quotes, control characters and letters beyond ASCII are read back. -/
theorem package_texts_read_back_escaped :
    content (namedDocument "Café <\"Ω\"> & 'co'\u007f" "1\t\\\n") [] [] (.whole 30) =
        .ok (namedContent "Café <\"Ω\"> & 'co'\u007f" "1\t\\\n") ∧
      text? "project" "version" (packageFile
          (namedContent "Café <\"Ω\"> & 'co'\u007f" "1\t\\\n")) =
        some (Text.ofString "1\t\\\n") ∧
      text? "project" "description" (packageFile
          (namedContent "Café <\"Ω\"> & 'co'\u007f" "1\t\\\n")) =
        some (projectSummary "Café <\"Ω\"> & 'co'\u007f") := by
  have hcontent : content (namedDocument "Café <\"Ω\"> & 'co'\u007f" "1\t\\\n") [] []
      (.whole 30) = .ok (namedContent "Café <\"Ω\"> & 'co'\u007f" "1\t\\\n") := rfl
  obtain ⟨hversion, hdescription⟩ := package_texts_read_back hcontent
  rw [if_pos (by decide)] at hversion hdescription
  exact ⟨hcontent, hversion, hdescription⟩

/-- A title with a code point beyond the first 65536 gives a description that is no text. -/
theorem description_not_read :
    Text.IsClean "a😀b" ∧
      content (namedDocument "a😀b" "1") [] [] (.whole 30) = .ok (namedContent "a😀b" "1") ∧
      text? "project" "description" (packageFile (namedContent "a😀b" "1")) = none := by
  have hname : CodePoint.ofChar '\n' ∉ (namedContent "a😀b" "1").projectName := by decide +kernel
  have hplane : ¬(projectSummary (namedContent "a😀b" "1").title).InBasicPlane := by decide +kernel
  refine ⟨by decide, rfl, ?_⟩
  rw [text?_description hname, if_neg hplane]

end Values

end Emission

end ApiTools
