import ApiTools.Emission.Write
import ApiTools.Proofs.MethodNames
import ApiTools.Proofs.SplitTexts

/-!
# Names of projects

The name of a project is made of lower-case ASCII letters, digits and underscores and starts with a
letter, whatever the title is (`packageName_cases`). So the directory of a project is an entry of
the output directory (`isEntry_projectDirectory`). How the name ends is left to the title: of all
code points only the ASCII letters and digits and the Kelvin sign have a lower case that ends in a
letter or digit of ASCII, and everything else becomes an underscore, with which no name of a project
may end (`isProjectName_packageName`).
-/

namespace ApiTools

namespace CodePoint

/-- The letters `a` to `z` and the digits `0` to `9`. -/
def isLowerOrDigit (c : CodePoint) : Bool := c.isAsciiLower || c.isAsciiDigit

/-- ASCII letters and digits. -/
def isAsciiAlphanumeric (c : CodePoint) : Bool := c.isAsciiLetter || c.isAsciiDigit

/-- The code points whose lower case is a letter or digit of ASCII: its letters and digits, and the
Kelvin sign. -/
def lowersToAscii (c : CodePoint) : Bool :=
  c.isAsciiAlphanumeric || c.val == 0x212A

private theorem isLowerOrDigit_iff {c : CodePoint} :
    c.isLowerOrDigit = true ↔ (97 ≤ c.val ∧ c.val ≤ 122) ∨ (48 ≤ c.val ∧ c.val ≤ 57) := by
  simp [isLowerOrDigit, isAsciiLower, isAsciiDigit]

private theorem lowersToAscii_iff {c : CodePoint} : c.lowersToAscii = true ↔
    (65 ≤ c.val ∧ c.val ≤ 90) ∨ (97 ≤ c.val ∧ c.val ≤ 122) ∨ (48 ≤ c.val ∧ c.val ≤ 57) ∨
      c.val = 0x212A := by
  simp [lowersToAscii, isAsciiAlphanumeric, isAsciiLetter, isAsciiUpper, isAsciiLower,
    isAsciiDigit, or_assoc]

private theorem val_orSelf_of_lt (c : CodePoint) {n : Nat} (h : n < 0x110000) : (c.orSelf n).val =
    n := by
  rw [orSelf, ofNat?, dif_pos h, Option.getD_some]

/-- What is moved to a letter or digit of ASCII is one of its capitals or the Kelvin sign. -/
theorem mapRuns_lowerRuns_ascii {n : Nat} (h : mapRuns lowerRuns n ≤ 122) :
    mapRuns lowerRuns n = n ∨ (65 ≤ n ∧ n ≤ 90) ∨ n = 0x212A := by
  rcases mapRuns_cases lowerRuns n with hkept | ⟨run, hmem, hfirst, hlast, hmoved⟩
  · exact .inl hkept
  · rcases lowerRuns_cases run hmem with hfar | ⟨hstart, hend, -⟩ | ⟨hstart, hend, -⟩
    · omega
    · exact .inr (.inl (by omega))
    · exact .inr (.inr (by omega))

/-- The lower case of a code point in the runs is a letter or digit of ASCII for those alone. -/
theorem isLowerOrDigit_orSelf_iff (c : CodePoint) :
    (c.orSelf (mapRuns lowerRuns c.val)).isLowerOrDigit = true ↔ c.lowersToAscii = true := by
  rw [isLowerOrDigit_iff, lowersToAscii_iff]
  constructor
  · intro h
    rcases val_orSelf c (mapRuns lowerRuns c.val) with hval | hval
    · rw [hval] at h
      rcases mapRuns_lowerRuns_ascii (n := c.val) (by omega) with hkept | hcapital | hsign
      · omega
      · exact .inl hcapital
      · exact .inr (.inr (.inr hsign))
    · omega
  · have hsmall : ∀ n < 0x80, (65 ≤ n ∧ n ≤ 90) ∨ (97 ≤ n ∧ n ≤ 122) ∨ (48 ≤ n ∧ n ≤ 57) →
        (97 ≤ mapRuns lowerRuns n ∧ mapRuns lowerRuns n ≤ 122) ∨
          (48 ≤ mapRuns lowerRuns n ∧ mapRuns lowerRuns n ≤ 57) := by
      decide
    have hkelvin : mapRuns lowerRuns 0x212A = 107 := by decide
    intro h
    have hmoved : (97 ≤ mapRuns lowerRuns c.val ∧ mapRuns lowerRuns c.val ≤ 122) ∨
        (48 ≤ mapRuns lowerRuns c.val ∧ mapRuns lowerRuns c.val ≤ 57) := by
      by_cases hsign : c.val = 0x212A
      · rw [hsign, hkelvin]
        exact .inl (by decide)
      · exact hsmall c.val (by omega) (by omega)
    rwa [val_orSelf_of_lt c (by omega)]

/-- The lower case of a code point ends in a letter or digit of ASCII only if it is one. -/
theorem getLast?_toLower (c : CodePoint) :
    c.toLower.getLast?.any isLowerOrDigit = c.lowersToAscii := by
  rw [Bool.eq_iff_iff, toLower]
  split
  · next hdotted =>
    rw [List.getLast?_cons_cons, List.getLast?_singleton, Option.any_some, isLowerOrDigit_iff,
      val_orSelf_of_lt c (by decide), lowersToAscii_iff]
    omega
  · exact isLowerOrDigit_orSelf_iff c

end CodePoint

namespace Text

open CodePoint (isLowerOrDigit lowersToAscii)

private theorem toLowerAfter_ne_nil (before : Text) (c : CodePoint) (t : Text) :
    toLowerAfter before (c :: t) ≠ [] := by
  rw [toLowerAfter]
  refine List.append_ne_nil_of_left_ne_nil ?_ _
  split
  · exact List.cons_ne_nil _ _
  · unfold CodePoint.toLower
    split <;> exact List.cons_ne_nil _ _

/-- The lower case of a text ends in a letter or digit of ASCII exactly if that of its last code
point is one. -/
theorem getLast?_toLowerAfter (before t : Text) :
    (toLowerAfter before t).getLast?.any isLowerOrDigit = t.getLast?.any lowersToAscii := by
  induction t generalizing before with
  | nil => rfl
  | cons c t ih =>
    cases t with
    | nil =>
      rw [toLowerAfter, toLowerAfter, List.append_nil, List.getLast?_singleton, Option.any_some]
      split
      · -- Both lower cases of a sigma are Greek.
        next hsigma =>
        rw [Bool.eq_iff_iff, List.getLast?_singleton, Option.any_some,
          CodePoint.isLowerOrDigit_iff, CodePoint.lowersToAscii_iff]
        split <;> rw [CodePoint.val_orSelf_of_lt c (by decide)] <;> omega
      · exact CodePoint.getLast?_toLower c
    | cons d t =>
      have hrest := toLowerAfter_ne_nil (c :: before) d t
      rw [toLowerAfter, List.getLast?_append_of_ne_nil _ hrest, ih, List.getLast?_cons_cons]

private theorem toLower_eq_nil_iff {t : Text} : t.toLower = [] ↔ t = [] := by
  cases t with
  | nil => exact iff_of_true rfl rfl
  | cons c t => exact iff_of_false (toLowerAfter_ne_nil [] c t) (List.cons_ne_nil c t)

end Text

namespace Files

variable {path name : Text}

/-- A path is that of an entry of a directory: it leads there and on by one name, which does not
lead back. -/
def IsEntry (path directory : Text) : Prop :=
  isRooted path = isRooted directory ∧
    ∃ name, name ≠ parent ∧ components path = components directory ++ [name]

/-- A name that a path can have as one of its parts. -/
structure IsComponent (name : Text) : Prop where
  ne_nil : name ≠ []
  ne_dot : name ≠ "."
  notMem : CodePoint.ofChar '/' ∉ name

private theorem isComponent_of_mem (h : name ∈ components path) : IsComponent name := by
  obtain ⟨hpiece, hname⟩ := List.mem_filter.mp h
  obtain ⟨hne, hdot⟩ := of_decide_eq_true hname
  exact ⟨hne, hdot, Text.notMem_of_mem_splitOn name hpiece⟩

private theorem components_append (path rest : Text) :
    components (path ++ "/" ++ rest) = components path ++ components rest := by
  rw [components, List.append_assoc]
  exact (congrArg _ (Text.splitOn_append '/' path rest)).trans (List.filter_append _ _)

private theorem IsComponent.components_eq (h : IsComponent name) : components name = [name] := by
  rw [components, Text.splitOn_of_notMem h.notMem]
  simp [h.ne_nil, h.ne_dot]

private theorem components_join {names : List Text} (h : ∀ name ∈ names, IsComponent name) :
    components (Text.join "/" names) = names := by
  cases names with
  | nil => rfl
  | cons name names =>
    have hsplit : Text.splitOn '/' (Text.join "/" (name :: names)) = name :: names :=
      Text.splitOn_join (List.cons_ne_nil _ _) fun n hn ↦ (h n hn).notMem
    rw [components, hsplit, List.filter_eq_self]
    exact fun n hn ↦ decide_eq_true ⟨(h n hn).ne_nil, (h n hn).ne_dot⟩

private theorem pathText_eq (path : Text) :
    pathText path = if isRooted path then "/" ++ Text.join "/" (components path)
      else if components path = [] then "." else Text.join "/" (components path) :=
  rfl

/-- A path as it is shown has the same names. -/
theorem components_pathText (path : Text) : components (pathText path) = components path := by
  have hjoin := components_join fun name (h : name ∈ components path) ↦ isComponent_of_mem h
  rw [pathText_eq]
  split
  · exact (components_append [] _).trans hjoin
  · split
    · next hnone =>
      rw [hnone]
      decide
    · exact hjoin

private theorem isRooted_cons (c : CodePoint) (path : Text) :
    isRooted (c :: path) = decide (c = CodePoint.ofChar '/') := by
  show (CodePoint.ofChar '/' == c && true) = _
  rw [Bool.and_true, Bool.eq_iff_iff, beq_iff_eq, decide_eq_true_eq, eq_comm]

private theorem isRooted_append (h : path ≠ []) (rest : Text) :
    isRooted (path ++ rest) = isRooted path := by
  obtain ⟨c, path, rfl⟩ := List.exists_cons_of_ne_nil h
  rw [List.cons_append, isRooted_cons, isRooted_cons]

private theorem IsComponent.isRooted_eq_false (h : IsComponent name) : isRooted name = false := by
  obtain ⟨c, rest, rfl⟩ := List.exists_cons_of_ne_nil h.ne_nil
  rw [isRooted_cons, decide_eq_false_iff_not]
  rintro rfl
  exact h.notMem List.mem_cons_self

/-- A path as it is shown starts at the same place. -/
theorem isRooted_pathText (path : Text) : isRooted (pathText path) = isRooted path := by
  rw [pathText_eq]
  split
  · next hrooted =>
    rw [hrooted, isRooted_append (by decide)]
    decide
  · next hrooted =>
    rw [Bool.not_eq_true] at hrooted
    rw [hrooted]
    split
    · decide
    · next hsome =>
      obtain ⟨name, names, hnames⟩ := List.exists_cons_of_ne_nil hsome
      have hname : IsComponent name := isComponent_of_mem (hnames ▸ List.mem_cons_self)
      rw [hnames, Text.join]
      cases names with
      | nil => rw [List.intercalate_singleton, hname.isRooted_eq_false]
      | cons _ _ =>
        rw [List.intercalate_cons_cons, List.append_assoc, isRooted_append hname.ne_nil,
          hname.isRooted_eq_false]

/-- What a directory has under a name is an entry of it. -/
theorem IsComponent.isEntry_within (h : IsComponent name) (hname : name ≠ parent)
    (directory : Text) : IsEntry (pathText (within directory name)) directory := by
  rw [IsEntry, isRooted_pathText, components_pathText, within]
  split
  · next hhere =>
    rw [hhere, h.isRooted_eq_false, h.components_eq]
    exact ⟨rfl, name, hname, rfl⟩
  · next hne =>
    rw [List.append_assoc, isRooted_append hne, ← List.append_assoc, components_append,
      h.components_eq]
    exact ⟨rfl, name, hname, rfl⟩

end Files

namespace Emission

open CodePoint (isLowerOrDigit lowersToAscii)

/-- The code points that names of projects are made of. -/
def isNameChar (c : CodePoint) : Bool := isLowerOrDigit c || c == CodePoint.ofChar '_'

/-- A code point of a title in lower case, as it is in the name of the project. -/
def nameChar (c : CodePoint) : CodePoint := if isNameChar c then c else CodePoint.ofChar '_'

/-- The code points of names are in ASCII. -/
theorem lt_of_isNameChar {c : CodePoint} (h : isNameChar c = true) : c.val < 0x80 := by
  rcases Bool.or_eq_true_iff.mp h with hself | hunderscore
  · rw [CodePoint.isLowerOrDigit_iff] at hself
    omega
  · rw [beq_iff_eq.mp hunderscore]
    decide

private theorem isNameChar_nameChar (c : CodePoint) : isNameChar (nameChar c) = true := by
  unfold nameChar
  split
  · assumption
  · decide

private theorem isLowerOrDigit_nameChar (c : CodePoint) :
    isLowerOrDigit (nameChar c) = isLowerOrDigit c := by
  unfold nameChar
  split
  · rfl
  · next h =>
    rw [isNameChar, Bool.not_eq_true, Bool.or_eq_false_iff] at h
    rw [h.1]
    decide

/-- The name of a project is its title in lower case, with letters in front of it if it starts with
none, or a word for an empty title. It starts with a letter in each case. -/
theorem packageName_cases (title : Text) :
    (packageName title).head?.any CodePoint.isAsciiLower = true ∧
    ((title = [] ∧ packageName title = "generated") ∨
      (title ≠ [] ∧ ∃ front ∈ ([[], "mcp_"] : List Text),
        packageName title = front ++ title.toLower.map nameChar)) := by
  cases hlower : title.toLower with
  | nil =>
    have hname : packageName title = "generated" := by
      rw [packageName, hlower]
      rfl
    exact ⟨by rw [hname]; decide, .inl ⟨Text.toLower_eq_nil_iff.mp hlower, hname⟩⟩
  | cons c lower =>
    have hname : packageName title = if (nameChar c).isAsciiLower = true
        then (c :: lower).map nameChar else "mcp_" ++ (c :: lower).map nameChar := by
      rw [packageName, hlower]
      rfl
    have htitle : title ≠ [] := by
      rintro rfl
      cases hlower
    rw [hname]
    split
    · next hstart => exact ⟨hstart, .inr ⟨htitle, [], by decide, rfl⟩⟩
    · exact ⟨rfl, .inr ⟨htitle, "mcp_", by decide, rfl⟩⟩

/-- The name of a package has code points of names alone. -/
theorem isNameChar_of_mem_packageName (title : Text) :
    ∀ c ∈ packageName title, isNameChar c = true := by
  obtain ⟨-, ⟨-, hname⟩ | ⟨-, front, hfront, hname⟩⟩ := packageName_cases title
  · rw [hname]
    decide
  · rw [hname, List.forall_mem_append, List.forall_mem_map]
    have hfronts : ∀ front ∈ ([[], "mcp_"] : List Text), ∀ c ∈ front, isNameChar c = true := by
      decide
    exact ⟨hfronts front hfront, fun c _ ↦ isNameChar_nameChar c⟩

/-- The name of a project ends in a letter or digit exactly if its title is empty or ends in a code
point whose lower case does. -/
theorem getLast?_packageName (title : Text) :
    (packageName title).getLast?.any isLowerOrDigit = true ↔
      title = [] ∨ title.getLast?.any lowersToAscii = true := by
  obtain ⟨-, ⟨htitle, hname⟩ | ⟨htitle, front, -, hname⟩⟩ := packageName_cases title
  · rw [hname]
    exact iff_of_true (by decide) (.inl htitle)
  · have hlower : title.toLower.map nameChar ≠ [] :=
      mt List.map_eq_nil_iff.mp (mt Text.toLower_eq_nil_iff.mp htitle)
    rw [hname, List.getLast?_append_of_ne_nil _ hlower, List.getLast?_map, Option.any_map,
      ← Text.getLast?_toLowerAfter []]
    simp only [isLowerOrDigit_nameChar, htitle, false_or]
    rfl

private theorem isNameChar_of_mem_directoryName (title : Text) :
    ∀ c ∈ directoryName title, isNameChar c = true := by
  rw [directoryName, List.forall_mem_append]
  exact ⟨isNameChar_of_mem_packageName title, by decide⟩

/-- The directory of a project is an entry of the output directory. -/
theorem isEntry_projectDirectory (output title : Text) :
    Files.IsEntry (projectDirectory output title) output := by
  have hchars := isNameChar_of_mem_directoryName title
  have hdot : CodePoint.ofChar '.' ∉ directoryName title := fun h ↦ absurd (hchars _ h) (by decide)
  have hname : Files.IsComponent (directoryName title) := {
    ne_nil := List.append_ne_nil_of_right_ne_nil _ (by decide)
    ne_dot := fun h ↦ hdot (h ▸ List.mem_cons_self)
    notMem := fun h ↦ absurd (hchars _ h) (by decide) }
  exact hname.isEntry_within (fun h ↦ hdot (h ▸ List.mem_cons_self)) output

/-- ASCII letters, digits, underscores, dots and hyphens. -/
def isProjectChar (c : CodePoint) : Bool :=
  c.isAsciiWord || c == CodePoint.ofChar '.' || c == CodePoint.ofChar '-'

/-- What an installer takes for the name of a project: a text of these code points with a letter or
digit at each end. -/
def isProjectName (t : Text) : Bool :=
  t.all isProjectChar && t.head?.any CodePoint.isAsciiAlphanumeric &&
    t.getLast?.any CodePoint.isAsciiAlphanumeric

private theorem isProjectChar_of_isNameChar {c : CodePoint} (h : isNameChar c = true) :
    isProjectChar c = true := by
  simp only [isNameChar, isLowerOrDigit, Bool.or_eq_true] at h
  simp only [isProjectChar, CodePoint.isAsciiWord, CodePoint.isAsciiLetter, Bool.or_eq_true]
  tauto

private theorem isAsciiAlphanumeric_of_isNameChar {c : CodePoint} (h : isNameChar c = true) :
    c.isAsciiAlphanumeric = isLowerOrDigit c := by
  rcases Bool.or_eq_true_iff.mp h with hself | hunderscore
  · rw [hself]
    simp only [isLowerOrDigit, Bool.or_eq_true] at hself
    simp only [CodePoint.isAsciiAlphanumeric, CodePoint.isAsciiLetter, Bool.or_eq_true]
    tauto
  · rw [beq_iff_eq.mp hunderscore]
    decide

/-- The name of a project is valid exactly if it does not end in an underscore. -/
theorem isProjectName_packageName (title : Text) :
    isProjectName (packageName title) = (packageName title).getLast?.any isLowerOrDigit := by
  have hchars := isNameChar_of_mem_packageName title
  have hall : (packageName title).all isProjectChar = true :=
    List.all_eq_true.mpr fun c hc ↦ isProjectChar_of_isNameChar (hchars c hc)
  have hhead : (packageName title).head?.any CodePoint.isAsciiAlphanumeric = true := by
    have hstart := (packageName_cases title).1
    cases hname : (packageName title).head? with
    | none => simp [hname] at hstart
    | some c =>
      rw [hname, Option.any_some] at hstart
      simp [CodePoint.isAsciiAlphanumeric, CodePoint.isAsciiLetter, hstart]
  have hlast : (packageName title).getLast?.any CodePoint.isAsciiAlphanumeric =
      (packageName title).getLast?.any isLowerOrDigit := by
    cases hname : (packageName title).getLast? with
    | none => rfl
    | some c => exact isAsciiAlphanumeric_of_isNameChar (hchars c (List.mem_of_getLast? hname))
  rw [isProjectName, hall, hhead, hlast, Bool.true_and, Bool.true_and]

end Emission

end ApiTools
