import ApiTools.CommandLine.Run
import ApiTools.Proofs.LoadedTexts
import ApiTools.Proofs.Loads
import ApiTools.Proofs.ProjectTexts
import ApiTools.Proofs.SharedIdentifiers

/-!
# What writing a project leaves

Files are written one after the other, and writing ends at the first text that UTF-8 cannot write:
the files before it stay, it is there but empty, and those behind it are not there
(`writeFiles_of_not_isClean`). A project is written in full, or not at all, or is broken off at its
server or at its page, since its other files can be written always (`leaves_write`). A loaded
document holds no surrogates, so the command that generates a project leaves parts of it only if the
URL of the service that it was told of holds one. It tells of a project that is there in full, and
fails at that if the console has no code points for the name of the directory
(`generated_in_full_or_not_at_all`).
-/

namespace ApiTools

namespace Emission

open Text (IsClean)

section Files

variable {directory name text : Text} {before files : Fields Text}

/-- Files with their paths below a directory. -/
def placed (directory : Text) (files : Fields Text) : Fields Text :=
  files.map fun f ↦ (directory ++ "/" ++ f.1, f.2)

/-- A file whose text can be written is there in full, and the others follow. -/
theorem writeFiles_cons (h : text.IsClean) (files : Fields Text) :
    writeFiles directory ((name, text) :: files) =
      { writeFiles directory files with
        files := (directory ++ "/" ++ name, text) :: (writeFiles directory files).files } := by
  rw [writeFiles, if_neg (mt Text.any_isSurrogate_iff.mp (not_not.mpr h))]

/-- Files whose texts can all be written are there in full. -/
theorem writeFiles_of_isClean (h : ∀ f ∈ files, f.2.IsClean) :
    writeFiles directory files = ⟨placed directory files, .ok directory⟩ := by
  induction files with
  | nil => rfl
  | cons f rest ih =>
    obtain ⟨hf, hrest⟩ := List.forall_mem_cons.mp h
    rw [writeFiles_cons hf, ih hrest]
    rfl

/-- At the first text that cannot be written, the files before it are there in full, its own is
there but empty, and none is there of those behind it. -/
theorem writeFiles_of_not_isClean (h : ∀ f ∈ before, f.2.IsClean) (name : Text)
    (htext : ¬text.IsClean) (behind : Fields Text) :
    writeFiles directory (before ++ (name, text) :: behind) =
      ⟨placed directory before ++ [(directory ++ "/" ++ name, [])],
        .error (.unencodable text)⟩ := by
  induction before with
  | nil =>
    rw [List.nil_append, writeFiles, if_pos (Text.any_isSurrogate_iff.mpr htext)]
    rfl
  | cons f rest ih =>
    obtain ⟨hf, hrest⟩ := List.forall_mem_cons.mp h
    rw [List.cons_append, writeFiles_cons hf, ih hrest]
    rfl

end Files

section Projects

variable {document : Document} {tools : List Tool} {baseUrl : Text} {timeout : Seconds}
  {c : Content} {directory : Text}

/-- What writing the project for a document leaves in its directory. -/
inductive Leaves (document : Document) (tools : List Tool) (baseUrl : Text) (timeout : Seconds)
    (directory : Text) (w : Written) : Prop
  /-- All files in full. -/
  | all (c : Content) (project : content document tools baseUrl timeout = .ok c)
      (clean : ∀ t ∈ pageTexts c, t.IsClean) (outcome : w.outcome = .ok directory)
      (files : w.files = placed directory (files c))
  /-- No file, since the project cannot be put there or is of a tool that has no function. -/
  | nothing (e : WriteError) (writable : ∀ text, e ≠ .unencodable text)
      (outcome : w.outcome = .error e) (files : w.files = [])
  /-- An empty server, and no other file. -/
  | emptyServer (c : Content) (project : content document tools baseUrl timeout = .ok c)
      (unclean : ∃ t ∈ serverTexts c, ¬t.IsClean)
      (outcome : w.outcome = .error (.unencodable (serverFile c)))
      (files : w.files = placed directory [("src/mcp_server.py", [])])
  /-- The server and the package description in full, and an empty page. -/
  | emptyPage (c : Content) (project : content document tools baseUrl timeout = .ok c)
      (server : ∀ t ∈ serverTexts c, t.IsClean) (unclean : ∃ t ∈ pageTexts c, ¬t.IsClean)
      (outcome : w.outcome = .error (.unencodable (pageFile c)))
      (files : w.files = placed directory [("src/mcp_server.py", serverFile c),
        ("pyproject.toml", packageFile c), ("README.md", [])])

private theorem isClean_serverTexts (h : ∀ t ∈ pageTexts c, t.IsClean) : ∀ t ∈ serverTexts c,
    t.IsClean :=
  fun t ht ↦ h t (List.mem_append_left _ (List.mem_append_left _ ht))

private theorem writeFiles_all (h : content document tools baseUrl timeout = .ok c)
    (hpage : ∀ t ∈ pageTexts c, t.IsClean) :
    writeFiles directory (files c) = ⟨placed directory (files c), .ok directory⟩ := by
  refine writeFiles_of_isClean ?_
  simp only [files, List.forall_mem_cons]
  exact ⟨(isClean_serverFile_iff h).mpr (isClean_serverTexts hpage), isClean_packageFile h,
    (isClean_pageFile_iff c).mpr hpage, isClean_lines _, List.forall_mem_nil _⟩

private theorem writeFiles_emptyServer (h : content document tools baseUrl timeout = .ok c)
    (hserver : ¬∀ t ∈ serverTexts c, t.IsClean) :
    writeFiles directory (files c) =
      ⟨placed directory [("src/mcp_server.py", [])], .error (.unencodable (serverFile c))⟩ := by
  have hnone : ∀ f ∈ ([] : Fields Text), f.2.IsClean := fun _ hf ↦ absurd hf List.not_mem_nil
  exact writeFiles_of_not_isClean hnone "src/mcp_server.py"
    (mt (isClean_serverFile_iff h).mp hserver) _

private theorem writeFiles_emptyPage (h : content document tools baseUrl timeout = .ok c)
    (hserver : ∀ t ∈ serverTexts c, t.IsClean) (hpage : ¬∀ t ∈ pageTexts c, t.IsClean) :
    writeFiles directory (files c) =
      ⟨placed directory [("src/mcp_server.py", serverFile c), ("pyproject.toml", packageFile c),
        ("README.md", [])], .error (.unencodable (pageFile c))⟩ := by
  have hbefore : ∀ f ∈ [(Text.ofString "src/mcp_server.py", serverFile c),
      (Text.ofString "pyproject.toml", packageFile c)], f.2.IsClean := by
    simp only [List.forall_mem_cons]
    exact ⟨(isClean_serverFile_iff h).mpr hserver, isClean_packageFile h, List.forall_mem_nil _⟩
  exact writeFiles_of_not_isClean hbefore "README.md" (mt (isClean_pageFile_iff c).mp hpage) _

/-- A project is written in full or not at all, or is broken off at one of its two files that hold
texts as they are. -/
theorem leaves_write (files : Files) (output : Text) (document : Document) (tools : List Tool)
    (baseUrl : Text) (timeout : Seconds) :
    Leaves document tools baseUrl timeout (projectDirectory output document.info.title)
      (write files output document tools baseUrl timeout) := by
  unfold write
  dsimp only
  split
  · exact .nothing (.path _) (fun _ ↦ nofun) rfl rfl
  split
  · split
    · exact .nothing (.model _) (fun _ ↦ nofun) rfl rfl
    · next c hc =>
      by_cases hpage : ∀ t ∈ pageTexts c, t.IsClean
      · rw [writeFiles_all hc hpage]
        exact .all c hc hpage rfl rfl
      by_cases hserver : ∀ t ∈ serverTexts c, t.IsClean
      · rw [writeFiles_emptyPage hc hserver hpage]
        exact .emptyPage c hc hserver (by simpa using hpage) rfl rfl
      · rw [writeFiles_emptyServer hc hserver]
        exact .emptyServer c hc (by simpa using hserver) rfl rfl
  · exact .nothing .blocked (fun _ ↦ nofun) rfl rfl

end Projects

end Emission

namespace CommandLine

open Emission (content placed serverFile packageFile pageTexts projectDirectory serverTexts)

variable {s : Settings} {sources : Sources} {document : Document} {tools : List Tool}
  {files : Fields Text} {outcome : Outcome} {console : Console}

/-- The document that a command works on was read from bytes, and its tools are some of those of the
document's operations. -/
theorem toldClean_of_loadTools (h : loadTools s sources = .ok (tools, some document)) :
    document.ToldClean ∧ ∀ tool ∈ tools, tool ∈ Catalog.ofDocument document := by
  unfold loadTools at h
  dsimp only at h
  split at h
  · cases h
  · next houtcome =>
    obtain ⟨source, other, ⟨bytes, -, hparse⟩, ⟨built, hbuilt, hoffered⟩, hkept⟩ :=
      Registry.load_empty_ok houtcome
    rw [hkept] at h
    cases h
    refine ⟨Document.toldClean_of_parse hparse, fun tool htool ↦ ?_⟩
    rw [hoffered] at htool
    rw [← Catalog.eq_ofDocument_of_build hbuilt]
    exact Registry.mem_of_mem_offered htool

section Project

variable {baseUrl : Text} {timeout : Seconds} {c : Emission.Content}

/-- The server for a document that was loaded holds no surrogates. -/
theorem isClean_serverTexts (h : content document tools baseUrl timeout = .ok c)
    (hdocument : document.ToldClean) : ∀ t ∈ serverTexts c, t.IsClean := by
  obtain ⟨htitle, hversion, -⟩ := Emission.names_of_content h
  simp only [serverTexts, List.forall_mem_cons]
  rw [htitle, hversion]
  exact ⟨hdocument.title, hdocument.version, List.forall_mem_nil _⟩

/-- Its functions are for tools whose identifiers, methods and paths hold none. -/
theorem isClean_functions (h : content document tools baseUrl timeout = .ok c)
    (hdocument : document.ToldClean)
    (htools : ∀ tool ∈ tools, tool ∈ Catalog.ofDocument document) :
    ∀ f ∈ c.functions, f.tool.id.IsClean ∧ f.tool.method.IsClean ∧ f.tool.path.IsClean := by
  intro f hf
  have hmem : f.tool ∈ (Catalog.index tools).values := by
    rw [← (Emission.functions_of_content h).1]
    exact List.mem_map_of_mem hf
  exact hdocument.tools f.tool (htools f.tool (Catalog.mem_of_mem_values hmem))

/-- The base URL of its project is the one that was given, or the document's, or none. -/
theorem isClean_baseUrl (h : content document tools baseUrl timeout = .ok c)
    (hdocument : document.ToldClean) (hurl : baseUrl.IsClean) : c.baseUrl.IsClean := by
  have hserver := hdocument.url
  rw [content] at h
  obtain ⟨functions, -, h⟩ := Outcome.bind_ok_iff.mp h
  cases h
  dsimp only
  split
  · exact hurl
  · cases hdeclared : document.serverUrl with
    | none => exact List.forall_mem_nil _
    | some url =>
      rw [hdeclared] at hserver
      rw [Option.filter_some]
      split
      · exact hserver
      · exact List.forall_mem_nil _

/-- The page holds no surrogates but those of the URL of the service that it is told of. -/
theorem isClean_pageTexts (h : content document tools baseUrl timeout = .ok c)
    (hdocument : document.ToldClean) (htools : ∀ tool ∈ tools, tool ∈ Catalog.ofDocument document)
    (hurl : baseUrl.IsClean) : ∀ t ∈ pageTexts c, t.IsClean := by
  have hserver := isClean_serverTexts h hdocument
  have hfunctions := isClean_functions h hdocument htools
  have hbase := isClean_baseUrl h hdocument hurl
  have hdescription : c.description.IsClean := by
    rw [content] at h
    obtain ⟨functions, -, h⟩ := Outcome.bind_ok_iff.mp h
    cases h
    exact hdocument.description
  simp only [pageTexts, List.forall_mem_append, List.forall_mem_cons, List.forall_mem_flatMap]
  exact ⟨⟨hserver, hdescription, hbase, List.forall_mem_nil _⟩, fun f hf ↦
    ⟨(hfunctions f hf).1, (hfunctions f hf).2.1, (hfunctions f hf).2.2, List.forall_mem_nil _⟩⟩

end Project

/-- What a run leaves whose project was broken off: the server and the package description in full
and an empty page, since a surrogate is in the URL of the service that the run was told of. -/
def LeavesEmptyPage (s : Settings) (sources : Sources) (files : Fields Text) : Prop :=
  ∃ tools document c, loadTools s sources = .ok (tools, some document) ∧
    content document tools s.serviceUrl (.double s.clientTimeout) = .ok c ∧
    ¬s.serviceUrl.IsClean ∧
    files = placed (projectDirectory s.outputDirectory document.info.title)
      [("src/mcp_server.py", serverFile c), ("pyproject.toml", packageFile c), ("README.md", [])]

/-- What a run leaves that cannot tell of its project: all files in full, in a directory whose name
the console refuses. -/
def LeavesUntold (s : Settings) (sources : Sources) (console : Console) (files : Fields Text) :
    Prop :=
  ∃ tools document c, loadTools s sources = .ok (tools, some document) ∧
    content document tools s.serviceUrl (.double s.clientTimeout) = .ok c ∧
    (∀ t ∈ pageTexts c, t.IsClean) ∧
    let directory := projectDirectory s.outputDirectory document.info.title
    files = placed directory (Emission.files c) ∧
      (console.refusal? (generatedLine directory)).isSome

private theorem files_of_failed {e : Failure} (h : failed files e = .ok outcome) :
    outcome.files = files := by
  unfold failed at h
  split at h
  · cases h
    rfl
  · cases h

/-- A failed generation leaves no file, a project that was broken off at its page, or one that is
not told of. -/
theorem files_of_runGenerate (hload : loadTools s sources = .ok (tools, some document))
    (h : runGenerate s sources.files document tools console = .ok outcome)
    (hexit : outcome.exit ≠ 0) :
    outcome.files = [] ∨ LeavesEmptyPage s sources outcome.files ∨
      LeavesUntold s sources console outcome.files := by
  obtain ⟨hdocument, htools⟩ := toldClean_of_loadTools hload
  have hleaves := Emission.leaves_write sources.files s.outputDirectory document tools s.serviceUrl
    (.double s.clientTimeout)
  unfold runGenerate at h
  dsimp only at h
  split at h
  · next e he =>
    rw [files_of_failed h]
    cases hleaves with
    | all _ _ _ houtcome =>
      rw [he] at houtcome
      cases houtcome
    | nothing _ _ _ hfiles => exact .inl hfiles
    | emptyServer c project unclean =>
      obtain ⟨t, ht, hunclean⟩ := unclean
      exact absurd (isClean_serverTexts project hdocument t ht) hunclean
    | emptyPage c project server unclean houtcome hfiles =>
      refine .inr (.inl ⟨tools, document, c, hload, project, fun hurl ↦ ?_, hfiles⟩)
      obtain ⟨t, ht, hunclean⟩ := unclean
      exact hunclean (isClean_pageTexts project hdocument htools hurl t ht)
  · next directory hdirectory =>
    split at h
    · next report hreport =>
      cases h
      -- Only a project that is there in full is told of.
      cases hleaves with
      | all c project clean houtcome hfiles =>
        rw [hdirectory] at houtcome
        cases houtcome
        exact .inr (.inr ⟨tools, document, c, hload, project, clean, hfiles,
          Option.isSome_of_eq_some hreport⟩)
      | nothing _ _ houtcome _ | emptyServer _ _ _ houtcome _ | emptyPage _ _ _ _ houtcome _ =>
        rw [hdirectory] at houtcome
        cases houtcome
    · cases h
      exact absurd rfl hexit

private theorem files_of_runServe {document : Option Document}
    (h : runServe s document tools = .ok outcome) : outcome.files = [] := by
  unfold runServe at h
  split at h
  · exact files_of_failed h
  · cases h
    rfl

/-- So does a failed run of any command. -/
theorem files_of_runCommand {command : Command}
    (h : runCommand s sources command console = .ok outcome) (hexit : outcome.exit ≠ 0) :
    outcome.files = [] ∨ LeavesEmptyPage s sources outcome.files ∨
      LeavesUntold s sources console outcome.files := by
  unfold runCommand at h
  split at h
  · exact .inl (files_of_failed h)
  · next tools document hload =>
    split at h
    · cases h
      exact .inl rfl
    · exact .inl (files_of_runServe h)
    · exact files_of_runGenerate hload h hexit
    · cases h
      exact .inl rfl

/-- A generation that is given up without a report has written nothing. -/
theorem files_of_runGenerate_error {files : Files} {reason : Abort}
    (h : runGenerate s files document tools console = .error reason) :
    (Emission.write files s.outputDirectory document tools s.serviceUrl
      (.double s.clientTimeout)).files = [] := by
  unfold runGenerate at h
  dsimp only at h
  split at h
  · next e he =>
    cases Emission.leaves_write files s.outputDirectory document tools s.serviceUrl
      (.double s.clientTimeout) with
    | all _ _ _ houtcome =>
      rw [he] at houtcome
      cases houtcome
    | nothing _ _ _ hfiles => exact hfiles
    | emptyServer _ _ _ houtcome | emptyPage _ _ _ _ houtcome =>
      rw [he] at houtcome
      cases houtcome
      cases h
  · split at h <;> cases h

/-- The URL of a service with a surrogate. -/
def strayUrl : Text := Text.ofString "https://h/" ++ [⟨0xDCFF, by decide⟩]

/-- A file that holds a document without paths. -/
def straySources : Sources where
  files := [("doc.json", (Text.ofString ("\x7b\"openapi\":\"3.0.0\",\"info\":" ++
    "\x7b\"title\":\"t\",\"version\":\"1\"\x7d,\"paths\":\x7b\x7d\x7d")).flatMap
      Encoding.utf8Bytes)]
  replies := []

/-- Arguments that ask for its project, to be made for a service with such a URL. -/
def strayArguments : List Text :=
  ["--service-url", strayUrl, "generate", "--url", "doc.json", "--output", "out"]

/-- What the arguments say. -/
def strayChoices : Choices :=
  { Choices.empty with
    serviceUrl := some strayUrl
    source := some "doc.json"
    output := some "out" }

/-- The settings with them. -/
def straySettings : Settings := strayChoices.apply Settings.standard

/-- What the project says. -/
def strayContent : Emission.Content :=
  { Emission.namedContent "t" "1" with
    baseUrl := strayUrl
    timeout := .double straySettings.clientTimeout }

/-- The files that the project is left with. -/
def strayFiles : Fields Text :=
  placed "out/t_mcp_server" [("src/mcp_server.py", serverFile strayContent),
    ("pyproject.toml", packageFile strayContent), ("README.md", [])]

private theorem write_stray :
    Emission.write straySources.files straySettings.outputDirectory
        (Emission.namedDocument "t" "1") [] straySettings.serviceUrl
        (.double straySettings.clientTimeout) =
      ⟨strayFiles, .error (.unencodable (Emission.pageFile strayContent))⟩ := by
  have hcontent : content (Emission.namedDocument "t" "1") [] straySettings.serviceUrl
      (.double straySettings.clientTimeout) = .ok strayContent := rfl
  have hdirectory : projectDirectory straySettings.outputDirectory
      (Emission.namedDocument "t" "1").info.title = "out/t_mcp_server" := by decide +kernel
  have hpath : Files.checkPath (Files.within "out/t_mcp_server" "src") = .ok () := by decide
  have hmake : Emission.canMake straySources.files (Files.within "out/t_mcp_server" "src") =
      true := by decide +kernel
  unfold Emission.write
  dsimp only
  rw [hdirectory, hpath]
  dsimp only
  rw [if_pos hmake, hcontent]
  exact Emission.writeFiles_emptyPage hcontent (by decide) (by decide)

/-- The run ends with a failure, and two of its files are there in full. -/
theorem run_stray : run [] straySources strayArguments =
    .ok ⟨1, [], some (Encoding.surrogateReport (Emission.pageFile strayContent)), [],
      strayFiles⟩ := by
  have hparse : parse strayArguments = .ok ⟨.generate, strayChoices⟩ := by decide +kernel
  have hsettings : settingsOf [] strayChoices = .ok straySettings := by decide +kernel
  have hload : loadTools straySettings straySources =
      .ok ([], some (Emission.namedDocument "t" "1")) := by decide +kernel
  rw [run, hparse]
  dsimp only
  rw [hsettings]
  dsimp only
  rw [if_pos (by decide +kernel), runCommand, hload]
  dsimp only
  rw [runGenerate, write_stray]
  rfl

/-- An output directory with a byte in its name that is not UTF-8. -/
def untoldDirectory : Text := Text.ofString "out" ++ [⟨0xDCFF, by decide⟩]

/-- Arguments that ask for the project to be made there. -/
def untoldArguments : List Text :=
  ["generate", "--url", "doc.json", "--output", untoldDirectory]

/-- What the arguments say. -/
def untoldChoices : Choices :=
  { Choices.empty with
    source := some "doc.json"
    output := some untoldDirectory }

/-- The settings with them. -/
def untoldSettings : Settings := untoldChoices.apply Settings.standard

/-- What the project says. -/
def untoldContent : Emission.Content :=
  { Emission.namedContent "t" "1" with timeout := .double untoldSettings.clientTimeout }

/-- The files of the project. -/
def untoldFiles : Fields Text :=
  placed (untoldDirectory ++ "/t_mcp_server") (Emission.files untoldContent)

private theorem write_untold :
    Emission.write straySources.files untoldSettings.outputDirectory
        (Emission.namedDocument "t" "1") [] untoldSettings.serviceUrl
        (.double untoldSettings.clientTimeout) =
      ⟨untoldFiles, .ok (untoldDirectory ++ "/t_mcp_server")⟩ := by
  have hcontent : content (Emission.namedDocument "t" "1") [] untoldSettings.serviceUrl
      (.double untoldSettings.clientTimeout) = .ok untoldContent := rfl
  have hdirectory : projectDirectory untoldSettings.outputDirectory
      (Emission.namedDocument "t" "1").info.title = untoldDirectory ++ "/t_mcp_server" := by
    decide +kernel
  have hpath : Files.checkPath (Files.within (untoldDirectory ++ "/t_mcp_server") "src") =
      .ok () := by decide +kernel
  have hmake : Emission.canMake straySources.files
      (Files.within (untoldDirectory ++ "/t_mcp_server") "src") = true := by decide +kernel
  unfold Emission.write
  dsimp only
  rw [hdirectory, hpath]
  dsimp only
  rw [if_pos hmake, hcontent]
  exact Emission.writeFiles_all hcontent (by decide)

/-- The run ends with a failure, and its files are all there in full. -/
theorem run_untold : run [] straySources untoldArguments .utf8 =
    .ok ⟨1, [], some (Encoding.surrogateReport (generatedLine (untoldDirectory ++
      "/t_mcp_server"))), [], untoldFiles⟩ := by
  have hparse : parse untoldArguments = .ok ⟨.generate, untoldChoices⟩ := by decide +kernel
  have hsettings : settingsOf [] untoldChoices = .ok untoldSettings := by decide +kernel
  have hload : loadTools untoldSettings straySources =
      .ok ([], some (Emission.namedDocument "t" "1")) := by decide +kernel
  rw [run, hparse]
  dsimp only
  rw [hsettings]
  dsimp only
  rw [if_pos (by decide +kernel), runCommand, hload]
  dsimp only
  rw [runGenerate, write_untold]
  rfl

/-- A tool with a parameter of no known type. -/
def untyped : Tool where
  id := "getItems"
  description := "Items"
  path := "/items"
  method := "GET"
  parameters := [{
    name := "filter"
    sanitizedName := "filter"
    location := "query"
    primitiveType := "object" }]

/-- A project is written in full or not at all, or is broken off at a file that holds a surrogate as
it is. A run of the program that fails leaves no file but where the URL of the service that it was
told of holds a surrogate, or where the console refuses the name of the directory of a project that
is there in full. A generation that is given up without a report has written none. -/
theorem generated_in_full_or_not_at_all :
    (∀ files output document tools baseUrl timeout,
      Emission.Leaves document tools baseUrl timeout
        (projectDirectory output document.info.title)
        (Emission.write files output document tools baseUrl timeout)) ∧
    (∀ environment sources arguments console outcome,
      run environment sources arguments console = .ok outcome → outcome.exit ≠ 0 →
      outcome.files = [] ∨ ∃ invocation s, parse arguments = .ok invocation ∧
        settingsOf environment invocation.choices = .ok s ∧
        (LeavesEmptyPage s sources outcome.files ∨
          LeavesUntold s sources console outcome.files)) ∧
    ∀ s files document tools console reason,
      runGenerate s files document tools console = .error reason →
      (Emission.write files s.outputDirectory document tools s.serviceUrl
        (.double s.clientTimeout)).files = [] := by
  refine ⟨Emission.leaves_write, ?_, fun _ _ _ _ _ _ ↦ files_of_runGenerate_error⟩
  intro environment sources arguments console outcome h hexit
  unfold run at h
  split at h
  · cases h
    exact .inl rfl
  · next invocation hparse =>
    split at h
    · cases h
    · next s hs =>
      split at h
      · exact (files_of_runCommand h hexit).imp_right fun hleft ↦ ⟨invocation, s, hparse, hs, hleft⟩
      · cases h

/-- A run with such a URL is broken off at the page, and one with such a directory cannot tell of
its project. A parameter of no known type ends a generation before anything is written. -/
theorem generated_in_full_or_not_at_all_stray :
    (∃ invocation s, parse strayArguments = .ok invocation ∧
      settingsOf [] invocation.choices = .ok s ∧ LeavesEmptyPage s straySources strayFiles) ∧
    (∃ invocation s, parse untoldArguments = .ok invocation ∧
      settingsOf [] invocation.choices = .ok s ∧
      LeavesUntold s straySources .utf8 untoldFiles) ∧
    (Emission.write straySources.files straySettings.outputDirectory
      (Emission.namedDocument "t" "1") [untyped] straySettings.serviceUrl
      (.double straySettings.clientTimeout)).files = [] := by
  have hgiven : runGenerate straySettings straySources.files (Emission.namedDocument "t" "1")
      [untyped] = .error (.failure (.write (.model (.unknownType "object")))) := by decide +kernel
  obtain ⟨-, hrun, hgenerate⟩ := generated_in_full_or_not_at_all
  refine ⟨?_, ?_, hgenerate _ _ _ _ _ _ hgiven⟩
  · obtain ⟨invocation, s, hparse, hs, hleft⟩ :=
      (hrun _ _ _ _ _ run_stray (by decide)).resolve_left nofun
    refine ⟨invocation, s, hparse, hs, hleft.resolve_right ?_⟩
    rintro ⟨tools, document, c, -, -, -, -, hrefused⟩
    cases hrefused
  · obtain ⟨invocation, s, hparse, hs, hleft⟩ :=
      (hrun _ _ _ _ _ run_untold (by decide)).resolve_left nofun
    refine ⟨invocation, s, hparse, hs, hleft.resolve_left ?_⟩
    rintro ⟨tools, document, c, -, -, -, hfiles⟩
    cases congrArg List.length hfiles

/-- A failed run may leave a server and the description of a package behind, or all files. -/
theorem project_left_in_part :
    (∃ report, run [] straySources strayArguments = .ok ⟨1, [], some report, [], strayFiles⟩) ∧
      strayFiles = [
        (Text.ofString "out/t_mcp_server/src/mcp_server.py", serverFile strayContent),
        (Text.ofString "out/t_mcp_server/pyproject.toml", packageFile strayContent),
        (Text.ofString "out/t_mcp_server/README.md", [])] ∧
      ∃ report, run [] straySources untoldArguments .utf8 =
        .ok ⟨1, [], some report, [], untoldFiles⟩ :=
  ⟨⟨_, run_stray⟩, rfl, _, run_untold⟩

end CommandLine

end ApiTools
