import Mathlib.Data.List.Induction
import ApiTools.Proofs.Placeholder

/-!
# Path substitution

The path of a request is made by replacing the placeholders of the path parameters one after the
other. That is the template filled at once, for as many of the parameters as one likes, exactly
when no argument brings in the placeholder of a later parameter.
-/

namespace ApiTools

namespace Request

open Placeholder

/-- The text that the placeholder of a name gets: that of the argument, if the name is the one of
some parameter and the argument is given. -/
def textOf (args : Arguments) (ps : List Parameter) (name : Text) : Option Text :=
  if name ∈ ps.map (·.name) then (args.given? name).bind fun v ↦ (formatted v).toOption else none

/-- Every given argument of some parameters has a text. -/
def AllFormatted (args : Arguments) (ps : List Parameter) : Prop :=
  ∀ p ∈ ps, ∀ v, args.given? p.name = some v → ∃ text, formatted v = .ok text

/-- With the arguments of earlier parameters put into a template there are as many placeholders of
a later one as before, unless these are filled with themselves. -/
def Undisturbed (args : Arguments) (ps : List Parameter) (template : Text) : Prop :=
  ∀ before p after, ps = before ++ p :: after → ∀ text, textOf args [p] p.name = some text →
    text = placeholder p.name ∨
      occurrences p.name (filled (textOf args before) template) = occurrences p.name template

section Steps

variable {args : Arguments}

/-- The parameters are gone through in order. -/
theorem fillPath_append (args : Arguments) (ps qs : List Parameter) (path : Text) :
    fillPath args (ps ++ qs) path = (fillPath args ps path).bind (fillPath args qs) := by
  induction ps generalizing path with
  | nil => rfl
  | cons p ps ih =>
    cases hgiven : args.given? p.name with
    | none => simp only [List.cons_append, fillPath, hgiven, ih]
    | some v =>
      cases hformat : formatted v with
      | error e => simp [fillPath, hgiven, hformat, bind, Except.bind]
      | ok text => simp only [List.cons_append, fillPath, hgiven, hformat, bind, Except.bind, ih]

private theorem textOf_self {p : Parameter} {v : Argument} {text : Text}
    (hgiven : args.given? p.name = some v) (hformat : formatted v = .ok text) :
    textOf args [p] p.name = some text := by
  simp [textOf, hgiven, hformat, Except.toOption]

private theorem exists_of_textOf_self {p : Parameter} {text : Text}
    (h : textOf args [p] p.name = some text) :
    ∃ v, args.given? p.name = some v ∧ formatted v = .ok text := by
  simp only [textOf, List.map_cons, List.map_nil, List.mem_singleton, ↓reduceIte,
    Option.bind_eq_some_iff] at h
  obtain ⟨v, hgiven, htext⟩ := h
  refine ⟨v, hgiven, ?_⟩
  cases hformat : formatted v with
  | error e => simp [hformat, Except.toOption] at htext
  | ok t =>
    rw [hformat, Except.toOption, Option.some.injEq] at htext
    rw [htext]

private theorem textOf_eq_none {ps : List Parameter} {name : Text} (h : name ∉ ps.map (·.name)) :
    textOf args ps name = none := by
  rw [textOf, if_neg h]

/-- The texts of parameters depend on their names alone, not on their order. -/
theorem textOf_perm {ps qs : List Parameter} (h : ps.Perm qs) :
    textOf args ps = textOf args qs := by
  funext name
  simp only [textOf, (h.map (·.name)).mem_iff]

private theorem textOf_append_given {before : List Parameter} {p : Parameter} {v : Argument}
    {text : Text} (hgiven : args.given? p.name = some v) (hformat : formatted v = .ok text) :
    textOf args (before ++ [p]) = extend (textOf args before) p.name text := by
  funext name
  by_cases hname : name = p.name
  · subst hname
    simp [textOf, extend, hgiven, hformat, Except.toOption]
  · simp [textOf, extend, hname]

private theorem textOf_append_missing {before : List Parameter} {p : Parameter}
    (hgiven : args.given? p.name = none) :
    textOf args (before ++ [p]) = textOf args before := by
  funext name
  by_cases hname : name = p.name
  · subst hname
    simp [textOf, hgiven]
  · simp [textOf, hname]

/-- One parameter more, where the earlier ones have filled the template at once: it joins them
exactly when they do not disturb it. -/
private theorem fillPath_singleton_iff {before : List Parameter} {p : Parameter} {v : Argument}
    {text : Text} (hfree : p.name ∉ before.map (·.name)) (hplain : IsPlain p.name)
    (hgiven : args.given? p.name = some v) (hformat : formatted v = .ok text) (template : Text) :
    fillPath args [p] (filled (textOf args before) template) =
        .ok (filled (textOf args (before ++ [p])) template) ↔
      text = placeholder p.name ∨
        occurrences p.name (filled (textOf args before) template) =
          occurrences p.name template := by
  rw [← filled_only_filled_iff (textOf args before) p.name text (textOf_eq_none hfree) hplain,
    textOf_append_given hgiven hformat, ← replace_eq_filled hplain]
  simp [fillPath, hgiven, hformat, bind, Except.bind]

end Steps

section Path

variable {args : Arguments} {ps : List Parameter} {template : Text}

private theorem name_notMem_before (hnames : (ps.map (·.name)).Nodup) {before : List Parameter}
    {p : Parameter} {after : List Parameter} (hsplit : ps = before ++ p :: after) :
    p.name ∉ before.map (·.name) := by
  rw [hsplit, List.map_append, List.map_cons, List.nodup_append] at hnames
  exact fun hmem ↦ hnames.2.2 _ hmem _ List.mem_cons_self rfl

private theorem allFormatted_of_fillPath {path : Text} (h : fillPath args ps template = .ok path) :
    AllFormatted args ps := by
  intro p hp v hgiven
  obtain ⟨before, after, rfl⟩ := List.append_of_mem hp
  cases hformat : formatted v with
  | ok text => exact ⟨text, rfl⟩
  | error e =>
    rw [fillPath_append] at h
    cases hbefore : fillPath args before template with
    | error e => simp [hbefore, Except.bind] at h
    | ok path => simp [hbefore, Except.bind, fillPath, hgiven, hformat, bind] at h

/-- Undisturbed parameters fill the template at once. -/
theorem fillPath_eq_filled (hnames : (ps.map (·.name)).Nodup) (hplain : ∀ p ∈ ps, IsPlain p.name)
    (hformatted : AllFormatted args ps) (hundisturbed : Undisturbed args ps template)
    {declared : List Parameter} (hdeclared : declared <+: ps) :
    fillPath args declared template = .ok (filled (textOf args declared) template) := by
  induction declared using List.reverseRecOn with
  | nil =>
    rw [filled_eq_self]
    · rfl
    · intro name text h
      simp [textOf] at h
  | append_singleton before p ih =>
    obtain ⟨after, hsplit⟩ := hdeclared
    rw [List.append_assoc, List.singleton_append] at hsplit
    have hp : p ∈ ps := by simp [← hsplit]
    have hfree := name_notMem_before hnames hsplit.symm
    rw [fillPath_append, ih ⟨p :: after, hsplit⟩, Except.bind]
    cases hgiven : args.given? p.name with
    | none => simp [fillPath, hgiven, textOf_append_missing hgiven]
    | some v =>
      obtain ⟨text, hformat⟩ := hformatted p hp v hgiven
      exact (fillPath_singleton_iff hfree (hplain p hp) hgiven hformat template).mpr
        (hundisturbed before p after hsplit.symm text (textOf_self hgiven hformat))

/-- Parameters that fill the template at once, however many of them are declared, do not disturb
each other. -/
theorem undisturbed_of_fillPath (hnames : (ps.map (·.name)).Nodup)
    (hplain : ∀ p ∈ ps, IsPlain p.name)
    (h : ∀ declared, declared <+: ps →
      fillPath args declared template = .ok (filled (textOf args declared) template)) :
    Undisturbed args ps template := by
  intro before p after hsplit text htext
  obtain ⟨v, hgiven, hformat⟩ := exists_of_textOf_self htext
  have hp : p ∈ ps := by simp [hsplit]
  have hfree := name_notMem_before hnames hsplit
  have hbefore := h before ⟨p :: after, hsplit.symm⟩
  have hone := h (before ++ [p]) ⟨after, by rw [hsplit, List.append_assoc, List.singleton_append]⟩
  rw [fillPath_append, hbefore, Except.bind] at hone
  exact (fillPath_singleton_iff hfree (hplain p hp) hgiven hformat template).mp hone

/-- Texts without opening braces never disturb each other in a flat template. -/
theorem undisturbed_of_no_brace (hnames : (ps.map (·.name)).Nodup) (hflat : IsFlat template)
    (htexts : ∀ name text, textOf args ps name = some text → CodePoint.ofChar '{' ∉ text) :
    Undisturbed args ps template := by
  intro before p after hsplit text htext
  have hfree : textOf args before p.name = none :=
    textOf_eq_none (name_notMem_before hnames hsplit)
  refine Or.inr (occurrences_filled _ hfree ?_ hflat)
  intro other value hvalue
  apply htexts other value
  rw [textOf] at hvalue ⊢
  split at hvalue
  · next hmem =>
    rw [if_pos (by rw [hsplit, List.map_append]; exact List.mem_append_left _ hmem), hvalue]
  · cases hvalue

end Path

/-- Gone through in the order of their declaration, the path parameters fill the template at once
after each step exactly when the given arguments have texts and do not disturb each other. Then any
other order in which they do not either gives the same path; texts without opening braces in a flat
template do not in any order. -/
theorem path_filled_at_once_iff (tool : Tool) (args : Arguments)
    (hnames : ((tool.parametersIn [Location.path]).map (·.name)).Nodup)
    (hplain : ∀ p ∈ tool.parametersIn [Location.path], IsPlain p.name) :
    ((∀ declared, declared <+: tool.parametersIn [Location.path] →
        fillPath args declared tool.path = .ok (filled (textOf args declared) tool.path)) ↔
      AllFormatted args (tool.parametersIn [Location.path]) ∧
        Undisturbed args (tool.parametersIn [Location.path]) tool.path) ∧
    ∀ ps, ps.Perm (tool.parametersIn [Location.path]) → AllFormatted args ps →
      (Undisturbed args ps tool.path ∨ IsFlat tool.path ∧ ∀ name text,
        textOf args ps name = some text → CodePoint.ofChar '{' ∉ text) →
      fillPath args ps tool.path =
        .ok (filled (textOf args (tool.parametersIn [Location.path])) tool.path) := by
  refine ⟨⟨fun h ↦ ?_, ?_⟩, ?_⟩
  · exact ⟨allFormatted_of_fillPath (h _ (List.prefix_refl _)),
      undisturbed_of_fillPath hnames hplain h⟩
  · rintro ⟨hformatted, hundisturbed⟩ declared hdeclared
    exact fillPath_eq_filled hnames hplain hformatted hundisturbed hdeclared
  · intro ps hperm hformatted hapart
    have hnames' : (ps.map (·.name)).Nodup := (hperm.map _).nodup_iff.mpr hnames
    have hplain' : ∀ p ∈ ps, IsPlain p.name := fun p hp ↦ hplain p (hperm.mem_iff.mp hp)
    have hundisturbed : Undisturbed args ps tool.path := by
      rcases hapart with hundisturbed | ⟨hflat, htexts⟩
      · exact hundisturbed
      · exact undisturbed_of_no_brace hnames' hflat htexts
    rw [← textOf_perm hperm]
    exact fillPath_eq_filled hnames' hplain' hformatted hundisturbed (List.prefix_refl _)

/-- A required path parameter. -/
def inPath (name : Text) : Parameter where
  name := name
  sanitizedName := name
  location := Location.path
  required := true

/-- A tool with two parameters in its path. -/
def twoPlaces : Tool where
  id := "getX_y"
  description := "Two places"
  path := "/\x7bx\x7d/\x7by\x7d"
  method := "GET"
  parameters := [inPath "x", inPath "y"]

/-- The placeholder of an earlier parameter in the text of a later one disturbs nothing. -/
theorem path_filled_at_once_two :
    ((twoPlaces.parametersIn [Location.path]).map (·.name)).Nodup ∧
    (∀ p ∈ twoPlaces.parametersIn [Location.path], IsPlain p.name) ∧
    Undisturbed [("x", .int 7), ("y", .string "\x7bx\x7d")]
      (twoPlaces.parametersIn [Location.path]) twoPlaces.path := by
  have hnames : ((twoPlaces.parametersIn [Location.path]).map (·.name)).Nodup := by decide +kernel
  have hplain : ∀ p ∈ twoPlaces.parametersIn [Location.path], IsPlain p.name := by decide +kernel
  refine ⟨hnames, hplain, ?_⟩
  refine ((path_filled_at_once_iff twoPlaces _ hnames hplain).1.mp ?_).2
  intro declared hdeclared
  have hin : twoPlaces.parametersIn [Location.path] = [inPath "x", inPath "y"] := by
    decide +kernel
  rw [hin] at hdeclared
  cases declared with
  | nil => rfl
  | cons p rest =>
    obtain ⟨rfl, hrest⟩ := List.cons_prefix_cons.mp hdeclared
    cases rest with
    | nil => rfl
    | cons q rest =>
      obtain ⟨rfl, hnil⟩ := List.cons_prefix_cons.mp hrest
      cases List.prefix_nil.mp hnil
      rfl

/-- The placeholder of a later parameter in the text of an earlier one is filled again. -/
theorem path_filled_again :
    fillPath [("x", .string "\x7by\x7d"), ("y", .int 1)] (twoPlaces.parametersIn [Location.path])
        twoPlaces.path = .ok "/1/1" ∧
      filled (textOf [("x", .string "\x7by\x7d"), ("y", .int 1)]
        (twoPlaces.parametersIn [Location.path])) twoPlaces.path = "/\x7by\x7d/1" :=
  ⟨rfl, rfl⟩

end Request

end ApiTools
