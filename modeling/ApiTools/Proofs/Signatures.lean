import ApiTools.Proofs.DecimalNotation
import ApiTools.Proofs.SharedIdentifiers

/-!
# Signatures

A name becomes an identifier that is neither a keyword nor used by the body of a generated function,
and a number behind it does not change that: no keyword has an underscore, and no used name ends in
a digit. Functions of a catalog's tools start with the name of a method, as no name of the generated
module does. So every function of a server has a well-formed signature
(`Emission.signatures_wellFormed`).
-/

namespace ApiTools

namespace Emission

open Identifier (unique suffixed)

/-- A name that the language allows: ASCII letters, digits and underscores, with no digit first. -/
structure IsIdentifier (t : Text) : Prop where
  start : ∃ c rest, t = c :: rest ∧ c.isAsciiDigit = false
  word : ∀ c ∈ t, c.isAsciiWord = true

/-- A name that functions and arguments can have. -/
structure IsUsable (t : Text) : Prop where
  identifier : IsIdentifier t
  keyword : t ∉ keywords
  free : t ∉ reserved

/-- The names that a generated module binds, or takes from those that are built in. -/
def moduleNames : List Text :=
  ["logging", "os", "Any", "Dict", "Literal", "Optional", "Union", "httpx", "FastMCP",
    "ToolDefinition", "plan", "logger", "SERVICE_URL", "SERVICE_AUTHORIZATION",
    "CLIENT_TIMEOUT_SECONDS", "mcp", "TOOL_DEFINITIONS", "call_api", "main", "__name__", "float",
    "int", "str", "bool", "RuntimeError"].map Text.ofString

/-- The arguments of a function whose signature is well-formed: usable names, each once, that of the
body for the body alone, those without a default first, and one argument for each of the tool. -/
structure WellFormed (tool : Tool) (as : List Argument) : Prop where
  usable : ∀ a ∈ as, IsUsable a.identifier
  distinct : (as.map (·.identifier)).Nodup
  body : tool.hasBody = true → ∀ a ∈ as, a.identifier = "body" ↔ a.isBody = true
  ordered : as.Pairwise fun a b ↦ b.required = true → a.required = true
  complete : ∃ own, List.Forall₂ (fun p a ↦ Argument.IsFor a p) tool.parameters own ∧
    as.Perm (own ++ bodyArguments tool)

section Identifiers

variable {t u : Text}

/-- An identifier is one with words behind it. -/
theorem IsIdentifier.append (ht : IsIdentifier t) (hu : ∀ c ∈ u, c.isAsciiWord = true) :
    IsIdentifier (t ++ u) where
  start := by
    obtain ⟨c, rest, rfl, hc⟩ := ht.start
    exact ⟨c, rest ++ u, rfl, hc⟩
  word c hc := by
    rcases List.mem_append.mp hc with hc | hc
    · exact ht.word c hc
    · exact hu c hc

private theorem underscore_notMem : ∀ t ∈ keywords, CodePoint.ofChar '_' ∉ t := by decide +kernel

/-- No keyword has an underscore. -/
theorem notMem_keywords (h : CodePoint.ofChar '_' ∈ t) : t ∉ keywords :=
  fun hmem ↦ underscore_notMem t hmem h

private theorem getLast?_reserved : ∀ t ∈ reserved, ∀ c ∈ t.getLast?, c.isAsciiLetter = true := by
  decide +kernel

/-- No name that the body of a function uses ends in anything but a letter. -/
theorem notMem_reserved {c : CodePoint} (hlast : t.getLast? = some c)
    (hc : c.isAsciiLetter = false) : t ∉ reserved := by
  intro hmem
  have hletter := getLast?_reserved t hmem c hlast
  rw [hc] at hletter
  cases hletter

/-- A name with an underscore and a number behind it is usable if it was an identifier. -/
theorem isUsable_suffixed (h : IsIdentifier t) (k : Nat) : IsUsable (suffixed t k) where
  identifier := by
    refine (h.append (by decide)).append fun c hc ↦ ?_
    simp [CodePoint.isAsciiWord, Text.isDigits_ofNat k c hc]
  keyword := notMem_keywords (by simp [suffixed, Text.ofString])
  free := by
    have hne : Text.ofNat k ≠ [] := by
      simp [Text.ofNat]
    have hlast : (suffixed t k).getLast? = some ((Text.ofNat k).getLast hne) := by
      rw [suffixed, List.getLast?_append_of_ne_nil _ hne, List.getLast?_eq_getLast_of_ne_nil hne]
    refine notMem_reserved hlast ?_
    have hdigit := Text.isDigits_ofNat k _ (List.getLast_mem hne)
    simp only [CodePoint.isAsciiDigit, Bool.and_eq_true, decide_eq_true_eq] at hdigit
    simp only [CodePoint.isAsciiLetter, CodePoint.isAsciiUpper, CodePoint.isAsciiLower,
      Bool.or_eq_false_iff, Bool.and_eq_false_iff, decide_eq_false_iff_not]
    omega

/-- A usable name made unique is usable. -/
theorem IsUsable.unique (h : IsUsable t) (taken : List Text) : IsUsable (unique t taken) := by
  rcases Identifier.unique_cases t taken with heq | ⟨k, heq⟩
  · rw [heq]
    exact h
  · rw [heq]
    exact isUsable_suffixed h.identifier k

end Identifiers

section Spelling

/-- A name with underscores for what no identifier has. -/
def wordOf (name : Text) : Text :=
  name.map fun (c : CodePoint) ↦ if c.isAsciiWord then c else CodePoint.ofChar '_'

/-- A word with letters before it if it needs them. -/
def spelled (word : Text) : Text := if needsLetters word then "p_" ++ word else word

private theorem identifier_eq (name : Text) : identifier name =
    if spelled (wordOf name) ∈ reserved then spelled (wordOf name) ++ "_"
    else spelled (wordOf name) := rfl

private theorem isAsciiWord_of_mem_wordOf {name : Text} {c : CodePoint} (h : c ∈ wordOf name) :
    c.isAsciiWord = true := by
  obtain ⟨d, -, rfl⟩ := List.mem_map.mp h
  split
  · assumption
  · decide

/-- A word that is spelled out is an identifier and no keyword. -/
theorem isIdentifier_spelled {word : Text} (hword : ∀ c ∈ word, c.isAsciiWord = true) :
    IsIdentifier (spelled word) ∧ spelled word ∉ keywords := by
  rw [spelled]
  split
  · have hp : IsIdentifier "p_" := ⟨⟨_, _, rfl, by decide⟩, by decide⟩
    exact ⟨hp.append hword, notMem_keywords (by simp [Text.ofString])⟩
  · next hneeds =>
    cases word with
    | nil => exact absurd rfl hneeds
    | cons c rest =>
      rw [needsLetters, Bool.or_eq_true, decide_eq_true_eq, not_or, Bool.not_eq_true] at hneeds
      exact ⟨⟨⟨c, rest, rfl, hneeds.1⟩, hword⟩, hneeds.2⟩

/-- Every name becomes a usable one. -/
theorem isUsable_identifier (name : Text) : IsUsable (identifier name) := by
  have hword : ∀ c ∈ wordOf name, c.isAsciiWord = true := fun _ ↦ isAsciiWord_of_mem_wordOf
  obtain ⟨hidentifier, hkeyword⟩ := isIdentifier_spelled hword
  rw [identifier_eq]
  split
  · refine ⟨hidentifier.append (by decide), notMem_keywords (by simp [Text.ofString]), ?_⟩
    exact notMem_reserved (List.getLast?_concat) (by decide)
  · next hfree => exact ⟨hidentifier, hkeyword, hfree⟩

end Spelling

section Arguments

variable {tool : Tool} {ps : List Parameter} {taken : List Text} {own as : List Argument}

private theorem isUsable_of_parameterArguments (h : parameterArguments ps taken = .ok own) :
    ∀ a ∈ own, IsUsable a.identifier := by
  induction ps generalizing taken own with
  | nil =>
    cases h
    exact nofun
  | cons p rest ih =>
    rw [parameterArguments_cons] at h
    obtain ⟨type, _, h⟩ := Outcome.bind_ok_iff.mp h
    obtain ⟨more, hmore, rfl⟩ := Outcome.map_ok_iff.mp h
    exact List.forall_mem_cons.mpr ⟨(isUsable_identifier p.sanitizedName).unique taken, ih hmore⟩

/-- The argument for the body has the name that is kept for it. -/
theorem of_mem_bodyArguments {a : Argument} (h : a ∈ bodyArguments tool) :
    tool.hasBody = true ∧ a.identifier = "body" ∧ a.isBody = true := by
  rw [bodyArguments] at h
  split at h
  · next hbody =>
    cases List.mem_singleton.mp h
    exact ⟨hbody, rfl, rfl⟩
  · cases h

private theorem nodup_bodyArguments (tool : Tool) :
    ((bodyArguments tool).map (·.identifier)).Nodup := by
  rw [bodyArguments]
  split
  · exact List.nodup_singleton _
  · exact List.nodup_nil

/-- The arguments that are made for a tool make a well-formed signature. -/
theorem wellFormed_arguments (h : arguments tool = .ok as) : WellFormed tool as := by
  rw [arguments] at h
  obtain ⟨own, hown, h⟩ := Outcome.bind_ok_iff.mp h
  cases h
  obtain ⟨hfor, hnodup, hfresh⟩ := parameterArguments_spec hown
  have hperm := List.filter_append_perm (·.required) (own ++ bodyArguments tool)
  have hbodyUsable : IsUsable "body" := ⟨⟨⟨_, _, rfl, by decide⟩, by decide⟩, by decide, by decide⟩
  have hkept : ∀ a ∈ own, tool.hasBody = true → a.identifier ≠ "body" := by
    intro a ha hbody heq
    apply hfresh a ha
    rw [if_pos hbody, heq]
    exact List.mem_singleton_self _
  refine ⟨?_, ?_, ?_, pairwise_filter_append _ _, own, hfor, hperm⟩
  · intro a ha
    rcases List.mem_append.mp (hperm.mem_iff.mp ha) with ha | ha
    · exact isUsable_of_parameterArguments hown a ha
    · rw [(of_mem_bodyArguments ha).2.1]
      exact hbodyUsable
  · rw [(hperm.map _).nodup_iff, List.map_append, List.nodup_append]
    refine ⟨hnodup, nodup_bodyArguments tool, ?_⟩
    rintro _ hfirst _ hsecond rfl
    obtain ⟨a, ha, hname⟩ := List.mem_map.mp hfirst
    obtain ⟨b, hb, hother⟩ := List.mem_map.mp hsecond
    obtain ⟨hbody, hidentifier, -⟩ := of_mem_bodyArguments hb
    exact hkept a ha hbody (hname.trans (hother.symm.trans hidentifier))
  · intro hbody a ha
    rcases List.mem_append.mp (hperm.mem_iff.mp ha) with ha | ha
    · refine iff_of_false (hkept a ha hbody) ?_
      rw [isBody_eq_false hfor ha]
      exact Bool.false_ne_true
    · exact iff_of_true (of_mem_bodyArguments ha).2.1 (of_mem_bodyArguments ha).2.2

end Arguments

section Functions

variable {tools : List Tool} {taken : List Text} {fs : List Function}

/-- Functions have distinct names not in use before, each made of its tool's identifier. -/
theorem names_functionsFrom (h : functionsFrom tools taken = .ok fs) :
    (fs.map (·.name)).Nodup ∧ ∀ f ∈ fs, f.name ∉ taken ∧
      ∃ used, f.name = unique (identifier f.tool.id) used := by
  induction tools generalizing taken fs with
  | nil =>
    cases h
    exact ⟨List.nodup_nil, nofun⟩
  | cons tool rest ih =>
    rw [functionsFrom_cons] at h
    obtain ⟨as, _, h⟩ := Outcome.bind_ok_iff.mp h
    obtain ⟨more, hmore, rfl⟩ := Outcome.map_ok_iff.mp h
    obtain ⟨hnodup, hfresh⟩ := ih hmore
    refine ⟨?_, List.forall_mem_cons.mpr ⟨⟨Identifier.unique_notMem _ taken, taken, rfl⟩, ?_⟩⟩
    · rw [List.map_cons, List.nodup_cons]
      refine ⟨fun hmem ↦ ?_, hnodup⟩
      obtain ⟨f, hf, heq⟩ := List.mem_map.mp hmem
      exact (hfresh f hf).1 (heq ▸ List.mem_cons_self)
    · intro f hf
      obtain ⟨hunused, hname⟩ := hfresh f hf
      exact ⟨fun hmem ↦ hunused (List.mem_cons_of_mem _ hmem), hname⟩

end Functions

section Methods

/-- No name of the module and no keyword starts with the name of a method. -/
theorem not_isPrefix_of_mem : ∀ m ∈ Spec.methods, ∀ t ∈ moduleNames ++ keywords, ¬m <+: t := by
  decide +kernel

/-- A word that starts with the name of a method needs no letters before it. -/
theorem spelled_of_isPrefix {m word : Text} (hm : m ∈ Spec.methods) (h : m <+: word) :
    spelled word = word := by
  have hstart : ∀ m ∈ Spec.methods, m ≠ [] ∧ ∀ c ∈ m.head?, c.isAsciiDigit = false := by
    decide +kernel
  have hkeyword : word ∉ keywords := fun hmem ↦
    not_isPrefix_of_mem m hm word (List.mem_append_right _ hmem) h
  obtain ⟨rest, rfl⟩ := h
  obtain ⟨c, t, rfl⟩ := List.exists_cons_of_ne_nil (hstart m hm).1
  have hdigit : c.isAsciiDigit = false := (hstart _ hm).2 c rfl
  have hneeds : needsLetters (c :: t ++ rest) = false := by
    rw [List.cons_append] at hkeyword ⊢
    simp [needsLetters, hdigit, hkeyword]
  rw [spelled, hneeds]
  rfl

/-- An identifier starts with the name of a method if the name it is made of does. -/
theorem isPrefix_identifier {m name : Text} (hm : m ∈ Spec.methods) (h : m <+: name) :
    m <+: identifier name := by
  have hword : m <+: wordOf name := by
    obtain ⟨rest, rfl⟩ := h
    have hkept : ∀ m ∈ Spec.methods, wordOf m = m := by decide +kernel
    rw [wordOf, List.map_append, ← wordOf, hkept m hm]
    exact List.prefix_append m _
  rw [identifier_eq, spelled_of_isPrefix hm hword]
  split
  · exact hword.trans (List.prefix_append _ _)
  · exact hword

/-- A name is at the start of what it is made unique to. -/
theorem isPrefix_unique (t : Text) (taken : List Text) : t <+: unique t taken := by
  rcases Identifier.unique_cases t taken with heq | ⟨k, heq⟩
  · exact ⟨[], by rw [heq, List.append_nil]⟩
  · rw [heq, suffixed, List.append_assoc]
    exact List.prefix_append t _

/-- The tool of an operation has the name of its method at the start of its identifier. -/
theorem exists_isPrefix_id {document : Document} (hmethods : document.NamesMethods) {tool : Tool}
    (h : tool ∈ Catalog.ofDocument document) : ∃ m ∈ Spec.methods, m <+: tool.id := by
  obtain ⟨⟨path, item⟩, hitem, h⟩ := List.mem_flatMap.mp h
  obtain ⟨⟨method, operation⟩, hoperation, rfl⟩ := List.mem_map.mp h
  have hmethod : Spec.isMethod method = true := hmethods _ hitem _ hoperation
  refine ⟨method.toLower, of_decide_eq_true hmethod, ?_⟩
  rw [← Spec.toLower_toUpper_of_isMethod hmethod]
  exact List.prefix_append _ _

/-- A function of such a tool has no name of the module. -/
theorem name_notMem_moduleNames {document : Document} (hmethods : document.NamesMethods)
    {f : Function} (htool : f.tool ∈ Catalog.ofDocument document) {used : List Text}
    (hname : f.name = unique (identifier f.tool.id) used) : f.name ∉ moduleNames := by
  obtain ⟨m, hm, hid⟩ := exists_isPrefix_id hmethods htool
  intro hmem
  apply not_isPrefix_of_mem m hm f.name (List.mem_append_left _ hmem)
  rw [hname]
  exact (isPrefix_identifier hm hid).trans (isPrefix_unique _ used)

end Methods

/-- Tools whose parameters are of known types have functions, one for each identifier. Their names
are usable and distinct, and their signatures are well-formed. No function of a tool that was built
of a document has a name of the module; the documents that are read have operations under the names
of methods alone. -/
theorem signatures_wellFormed (tools : List Tool)
    (htypes : ∀ tool ∈ tools, ∀ p ∈ tool.parameters, p.primitiveType ∈ primitiveTypes) :
    (∃ fs, functions tools = .ok fs ∧ fs.map (·.tool) = (Catalog.index tools).values ∧
      (fs.map (·.name)).Nodup ∧
      (∀ f ∈ fs, IsUsable f.name ∧ WellFormed f.tool f.arguments) ∧
      ∀ document strict built, document.NamesMethods →
        (Catalog.build strict document).outcome = .ok built →
        ∀ f ∈ fs, f.tool ∈ built → f.name ∉ moduleNames) ∧
    ∀ spec document, (Document.ofSpec spec).outcome = .ok document → document.NamesMethods := by
  have hslots : ∀ tool ∈ (Catalog.index tools).values, ∀ p ∈ tool.parameters,
      ∃ type, SlotType.ofParameter p = .ok type := by
    intro tool htool p hp
    exact p.exists_slotType_iff.mpr (htypes tool (Catalog.mem_of_mem_values htool) p hp)
  obtain ⟨fs, hfs⟩ := exists_functionsFrom hslots []
  obtain ⟨htools, hargs⟩ := functionsFrom_spec hfs
  obtain ⟨hnodup, hnames⟩ := names_functionsFrom hfs
  refine ⟨⟨fs, hfs, htools, hnodup, fun f hf ↦ ?_, ?_⟩, fun _ _ ↦ Document.namesMethods_of_ofSpec⟩
  · obtain ⟨-, used, hname⟩ := hnames f hf
    refine ⟨?_, wellFormed_arguments (hargs f hf)⟩
    rw [hname]
    exact (isUsable_identifier f.tool.id).unique used
  · intro document strict built hmethods hbuilt f hf htool
    obtain ⟨-, used, hname⟩ := hnames f hf
    rw [Catalog.eq_ofDocument_of_build hbuilt] at htool
    exact name_notMem_moduleNames hmethods htool hname

/-- A tool whose names are a keyword, that of the body and two that differ in a sign. -/
def orders : Tool where
  id := "post orders"
  description := "An order"
  path := "/orders"
  method := "POST"
  parameters := ["class", "body", "a-b", "a.b"].map fun name ↦
    { name := name, sanitizedName := Identifier.sanitize name, location := Location.query }
  hasBody := true

/-- The signature of such a tool is well-formed. -/
theorem signatures_wellFormed_orders :
    (∀ tool ∈ [orders], ∀ p ∈ tool.parameters, p.primitiveType ∈ primitiveTypes) ∧
      ∃ fs, functions [orders] = .ok fs ∧ fs.map (·.tool) = [orders] ∧
        ∀ f ∈ fs, IsUsable f.name ∧ WellFormed f.tool f.arguments := by
  have htypes : ∀ tool ∈ [orders], ∀ p ∈ tool.parameters, p.primitiveType ∈ primitiveTypes := by
    decide
  obtain ⟨⟨fs, hfs, htools, -, husable, -⟩, -⟩ := signatures_wellFormed [orders] htypes
  exact ⟨htypes, fs, hfs, htools, husable⟩

example : (functions [orders]).map (·.map fun f ↦ (f.name, f.arguments.map (·.identifier))) =
    .ok [(Text.ofString "post_orders",
      ["p_class", "body_2", "a_b", "a_b_2", "body"].map Text.ofString)] := by
  decide +kernel

end Emission

end ApiTools
