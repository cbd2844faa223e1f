import ApiTools.Emission.Project
import ApiTools.Proofs.Assignment

/-!
# Collected arguments

The body of a generated function collects the arguments that are given under their names. Where
required parameters come first it does so in the order of the parameters, the body last.
-/

namespace ApiTools

/-- A parameter of a known type, or restricted to some texts. -/
def Parameter.IsTyped (p : Parameter) : Prop :=
  p.primitiveType ∈ primitiveTypes ∨ ∃ v rest, p.enumValues = some (v :: rest)

/-- The parameters of known types have slots. -/
theorem Parameter.exists_slotType_iff (p : Parameter) :
    (∃ type, SlotType.ofParameter p = .ok type) ↔ p.primitiveType ∈ primitiveTypes := by
  unfold SlotType.ofParameter
  simp only [primitiveTypes, List.mem_cons, List.not_mem_nil, or_false]
  repeat'
    split
    · next h => simp [h]
  next hstring hinteger hnumber hboolean => simp [hstring, hinteger, hnumber, hboolean]

/-- No required parameter comes after an optional one. -/
def RequiredFirst (ps : List Parameter) : Prop :=
  ps.Pairwise fun p q ↦ q.required = true → p.required = true

/-- Those with a flag, put before the others, come first. -/
theorem pairwise_filter_append {α : Type} (flag : α → Bool) (l : List α) :
    (l.filter flag ++ l.filter (!flag ·)).Pairwise fun a b ↦ flag b = true → flag a = true := by
  have hset : ∀ a ∈ l.filter flag, flag a = true := fun a ha ↦ (List.mem_filter.mp ha).2
  have hclear : ∀ b ∈ l.filter (!flag ·), flag b = false := fun b hb ↦
    Bool.not_eq_eq_eq_not.mp (List.mem_filter.mp hb).2
  rw [List.pairwise_append]
  refine ⟨List.pairwise_of_forall_mem_list fun a ha _ _ _ ↦ hset a ha, ?_,
    fun a ha _ _ _ ↦ hset a ha⟩
  refine List.pairwise_of_forall_mem_list fun _ _ b hb hflag ↦ ?_
  rw [hclear b hb] at hflag
  cases hflag

namespace Emission

variable {tool : Tool} {ps : List Parameter} {taken : List Text} {own as : List Argument}

/-- What a generated function collects when some arguments are given: each of those that is not
null is set under its name. -/
def collect (f : Function) (keywords : Arguments) : Arguments :=
  (collected f.arguments).foldl
    (fun args a ↦
      match keywords.given? a.identifier with
      | some v => args.set a.name v
      | none => args) []

/-- An argument that is made for a parameter. -/
structure Argument.IsFor (a : Argument) (p : Parameter) : Prop where
  name : a.name = p.name
  required : a.required = p.required
  isBody : a.isBody = false

/-! ### Arguments of functions -/

/-- The first argument is made, and its identifier is in use for the others. -/
theorem parameterArguments_cons (p : Parameter) (rest : List Parameter) (taken : List Text) :
    parameterArguments (p :: rest) taken = annotation p >>= fun type ↦
      let name := Identifier.unique (identifier p.sanitizedName) taken
      (parameterArguments rest (name :: taken)).map
        (⟨p.name, name, type, p.required, false⟩ :: ·) := by
  rw [parameterArguments]
  cases annotation p <;> rfl

/-- Parameters and arguments correspond in order, under distinct identifiers not in use before. -/
theorem parameterArguments_spec (h : parameterArguments ps taken = .ok own) :
    List.Forall₂ (fun p a ↦ a.IsFor p) ps own ∧ (own.map (·.identifier)).Nodup ∧
      ∀ a ∈ own, a.identifier ∉ taken := by
  induction ps generalizing taken own with
  | nil =>
    cases h
    exact ⟨.nil, List.nodup_nil, fun a ha ↦ by cases ha⟩
  | cons p rest ih =>
    rw [parameterArguments_cons] at h
    obtain ⟨type, _, h⟩ := Outcome.bind_ok_iff.mp h
    obtain ⟨more, hmore, rfl⟩ := Outcome.map_ok_iff.mp h
    obtain ⟨hfor, hnodup, hfresh⟩ := ih hmore
    refine ⟨.cons ⟨rfl, rfl, rfl⟩ hfor, ?_, ?_⟩
    · rw [List.map_cons, List.nodup_cons]
      refine ⟨fun hmem ↦ ?_, hnodup⟩
      obtain ⟨a, ha, heq⟩ := List.mem_map.mp hmem
      exact hfresh a ha (heq ▸ List.mem_cons_self)
    · intro a ha
      rcases List.mem_cons.mp ha with rfl | ha
      · exact Identifier.unique_notMem _ taken
      · exact fun hmem ↦ hfresh a ha (List.mem_cons_of_mem _ hmem)

/-- The parameters with annotations are those of known types and those restricted to texts. -/
theorem exists_annotation_iff (p : Parameter) : (∃ text, annotation p = .ok text) ↔ p.IsTyped := by
  rw [Parameter.IsTyped, ← p.exists_slotType_iff]
  unfold annotation
  split
  · next v rest henum => exact iff_of_true ⟨_, rfl⟩ (.inr ⟨v, rest, henum⟩)
  · next hnone =>
    constructor
    · rintro ⟨text, htext⟩
      cases htype : SlotType.ofParameter p with
      | error e =>
        rw [htype] at htext
        cases htext
      | ok type => exact .inl ⟨type, rfl⟩
    · rintro (⟨type, htype⟩ | ⟨v, rest, henum⟩)
      · rw [htype]
        cases type <;> exact ⟨_, rfl⟩
      · exact absurd henum (hnone v rest)

/-- Arguments can be made for parameters with annotations. -/
theorem exists_parameterArguments_iff (ps : List Parameter) (taken : List Text) :
    (∃ own, parameterArguments ps taken = .ok own) ↔ ∀ p ∈ ps, p.IsTyped := by
  induction ps generalizing taken with
  | nil => exact iff_of_true ⟨[], rfl⟩ nofun
  | cons p rest ih =>
    rw [List.forall_mem_cons, ← exists_annotation_iff, parameterArguments_cons]
    simp only [Outcome.bind_ok_iff, Outcome.map_ok_iff]
    constructor
    · rintro ⟨_, type, htype, own, hown, _⟩
      exact ⟨⟨type, htype⟩, (ih _).mp ⟨own, hown⟩⟩
    · rintro ⟨⟨type, htype⟩, htyped⟩
      obtain ⟨own, hown⟩ := (ih _).mpr htyped
      exact ⟨_, type, htype, own, hown, rfl⟩

/-- A function can be made for a tool if arguments can be made for its parameters. -/
theorem exists_arguments_iff (tool : Tool) :
    (∃ as, arguments tool = .ok as) ↔ ∀ p ∈ tool.parameters, p.IsTyped := by
  rw [← exists_parameterArguments_iff tool.parameters (InputModel.bodyNames tool),
    InputModel.bodyNames, arguments]
  simp only [Outcome.bind_ok_iff]
  constructor
  · rintro ⟨_, own, hown, _⟩
    exact ⟨own, hown⟩
  · rintro ⟨own, hown⟩
    exact ⟨_, own, hown, rfl⟩

/-- What has a flag, taken out and put first, changes nothing where it is first already. -/
private theorem filter_append_filter_not {α : Type} {flag : α → Bool} {l : List α}
    (h : l.Pairwise fun a b ↦ flag b = true → flag a = true) :
    l.filter flag ++ l.filter (!flag ·) = l := by
  induction l with
  | nil => rfl
  | cons a rest ih =>
    obtain ⟨hfirst, hrest⟩ := List.pairwise_cons.mp h
    cases hflag : flag a with
    | true => simp [hflag, ih hrest]
    | false =>
      have hnone : ∀ b ∈ rest, flag b = false := by
        intro b hb
        cases hother : flag b with
        | false => rfl
        | true =>
          have hset := hfirst b hb hother
          rw [hflag] at hset
          cases hset
      have hempty : rest.filter flag = [] := by
        rw [List.filter_eq_nil_iff]
        intro b hb
        rw [hnone b hb]
        exact Bool.false_ne_true
      have hall : rest.filter (!flag ·) = rest := by
        rw [List.filter_eq_self]
        intro b hb
        rw [hnone b hb]
        rfl
      simp [hflag, hempty, hall]

private theorem filter_reordered {α : Type} (flag p : α → Bool) (l : List α) :
    (l.filter flag ++ l.filter (!flag ·)).filter p =
      (l.filter p).filter flag ++ (l.filter p).filter (!flag ·) := by
  rw [List.filter_append, List.filter_comm, List.filter_comm (!flag ·)]

section Body

variable (hfor : List.Forall₂ (fun p a ↦ Argument.IsFor a p) ps own)

include hfor

/-- The argument of a parameter is not that of the body. -/
theorem isBody_eq_false {a : Argument} (ha : a ∈ own) : a.isBody = false := by
  obtain ⟨p, hzip⟩ := exists_mem_zip hfor.flip ha
  exact (List.forall₂_zip hfor.flip hzip).isBody

private theorem filter_isBody :
    (own ++ bodyArguments tool).filter (·.isBody) = bodyArguments tool := by
  have hnone : own.filter (·.isBody) = [] := by
    rw [List.filter_eq_nil_iff]
    intro a ha
    rw [isBody_eq_false hfor ha]
    exact Bool.false_ne_true
  rw [List.filter_append, hnone, List.nil_append, bodyArguments]
  split <;> rfl

private theorem filter_not_isBody : (own ++ bodyArguments tool).filter (!·.isBody) = own := by
  have hall : own.filter (!·.isBody) = own := by
    rw [List.filter_eq_self]
    intro a ha
    rw [isBody_eq_false hfor ha]
    rfl
  have hnone : (bodyArguments tool).filter (!·.isBody) = [] := by
    rw [bodyArguments]
    split <;> rfl
  rw [List.filter_append, hall, hnone, List.append_nil]

end Body

/-- Arguments are collected in the order of the parameters, the body last. -/
theorem collected_arguments (hfirst : RequiredFirst tool.parameters)
    (h : arguments tool = .ok as) :
    ∃ own, parameterArguments tool.parameters (InputModel.bodyNames tool) = .ok own ∧
      collected as = own ++ bodyArguments tool := by
  rw [arguments] at h
  obtain ⟨own, hown, h⟩ := Outcome.bind_ok_iff.mp h
  cases h
  refine ⟨own, hown, ?_⟩
  obtain ⟨hfor, _, _⟩ := parameterArguments_spec hown
  have hrequired : own.Pairwise fun a b ↦ b.required = true → a.required = true := by
    have heq : own.map (·.required) = tool.parameters.map (·.required) := by
      rw [← List.forall₂_eq_eq_eq, List.forall₂_map_left_iff, List.forall₂_map_right_iff]
      exact hfor.flip.imp fun _ _ ha ↦ ha.required
    have hflags : (own.map (·.required)).Pairwise fun b c ↦ c = true → b = true := by
      rw [heq, List.pairwise_map]
      exact hfirst
    exact List.pairwise_map.mp hflags
  have hone : (bodyArguments tool).Pairwise fun a b ↦ b.required = true → a.required = true := by
    rw [bodyArguments]
    split <;> simp
  rw [collected, filter_reordered, filter_reordered, filter_not_isBody hfor, filter_isBody hfor,
    filter_append_filter_not hrequired, filter_append_filter_not hone]

/-- The arguments that are collected are those of the function. -/
theorem collected_perm (as : List Argument) : (collected as).Perm as := by
  rw [collected]
  exact List.perm_append_comm.trans (List.filter_append_perm (·.isBody) as)

/-- Where required parameters come first, arguments are collected under the names of the parameters
in order, and have distinct identifiers. -/
theorem collected_names (hfirst : RequiredFirst tool.parameters) (h : arguments tool = .ok as) :
    (collected as).map (·.name) = tool.parameters.map (·.name) ++ InputModel.bodyNames tool ∧
      ((collected as).map (·.identifier)).Nodup := by
  obtain ⟨own, hown, hcollected⟩ := collected_arguments hfirst h
  obtain ⟨hfor, hnodup, hfresh⟩ := parameterArguments_spec hown
  have hnames : own.map (·.name) = tool.parameters.map (·.name) := by
    rw [← List.forall₂_eq_eq_eq, List.forall₂_map_left_iff, List.forall₂_map_right_iff]
    exact hfor.flip.imp fun _ _ ha ↦ ha.name
  have hbody : (bodyArguments tool).map (·.name) = InputModel.bodyNames tool ∧
      (bodyArguments tool).map (·.identifier) = InputModel.bodyNames tool := by
    rw [bodyArguments, InputModel.bodyNames]
    split <;> exact ⟨rfl, rfl⟩
  rw [hcollected, List.map_append, List.map_append, hnames, hbody.1, hbody.2, List.nodup_append]
  refine ⟨rfl, hnodup, ?_, ?_⟩
  · rw [InputModel.bodyNames]
    split <;> simp
  · intro name hname other hother heq
    obtain ⟨a, ha, rfl⟩ := List.mem_map.mp hname
    exact hfresh a ha (heq ▸ hother)

/-! ### Functions of servers -/

/-- A function is made for the first tool, and its name is in use for the others. -/
theorem functionsFrom_cons (tool : Tool) (rest : List Tool) (taken : List Text) :
    functionsFrom (tool :: rest) taken = (arguments tool).bind fun as ↦
      let name := Identifier.unique (identifier tool.id) taken
      (functionsFrom rest (name :: taken)).map (⟨tool, name, docstring tool, as⟩ :: ·) := by
  rw [functionsFrom]
  cases arguments tool <;> rfl

/-- Functions are made for tools in order, each with the arguments of its tool. -/
theorem functionsFrom_spec {tools : List Tool} {functions : List Function}
    (h : functionsFrom tools taken = .ok functions) :
    functions.map (·.tool) = tools ∧ ∀ f ∈ functions, arguments f.tool = .ok f.arguments := by
  induction tools generalizing taken functions with
  | nil =>
    cases h
    exact ⟨rfl, fun f hf ↦ by cases hf⟩
  | cons tool rest ih =>
    rw [functionsFrom_cons] at h
    obtain ⟨as, hargs, h⟩ := Outcome.bind_ok_iff.mp h
    obtain ⟨more, hmore, rfl⟩ := Outcome.map_ok_iff.mp h
    obtain ⟨htools, hothers⟩ := ih hmore
    refine ⟨congrArg (tool :: ·) htools, fun f hf ↦ ?_⟩
    rcases List.mem_cons.mp hf with rfl | hf
    · exact hargs
    · exact hothers f hf

/-- Functions can be made for tools whose parameters have annotations. -/
theorem exists_functionsFrom_iff (tools : List Tool) (taken : List Text) :
    (∃ functions, functionsFrom tools taken = .ok functions) ↔
      ∀ tool ∈ tools, ∀ p ∈ tool.parameters, p.IsTyped := by
  induction tools generalizing taken with
  | nil => exact iff_of_true ⟨[], rfl⟩ nofun
  | cons tool rest ih =>
    rw [List.forall_mem_cons, ← exists_arguments_iff, functionsFrom_cons]
    constructor
    · rintro ⟨_, h⟩
      obtain ⟨as, hargs, h⟩ := Outcome.bind_ok_iff.mp h
      obtain ⟨more, hmore, _⟩ := Outcome.map_ok_iff.mp h
      exact ⟨⟨as, hargs⟩, (ih _).mp ⟨more, hmore⟩⟩
    · rintro ⟨⟨as, hargs⟩, htyped⟩
      obtain ⟨more, hmore⟩ :=
        (ih (Identifier.unique (identifier tool.id) taken :: taken)).mpr htyped
      rw [hargs]
      simp only [Except.bind, hmore, Except.map]
      exact ⟨_, rfl⟩

/-- The functions of a server are those of the index, each with the arguments of its tool. -/
theorem functions_of_content {document : Document} {tools : List Tool} {baseUrl : Text}
    {timeout : Seconds} {c : Content} (h : content document tools baseUrl timeout = .ok c) :
    c.functions.map (·.tool) = (Catalog.index tools).values ∧
      ∀ f ∈ c.functions, arguments f.tool = .ok f.arguments := by
  rw [content] at h
  obtain ⟨functions, hfunctions, h⟩ := Outcome.bind_ok_iff.mp h
  cases h
  exact functionsFrom_spec hfunctions

/-- Functions can be made for tools whose parameters are of known types. -/
theorem exists_functionsFrom {tools : List Tool} (htypes : ∀ tool ∈ tools, ∀ p ∈ tool.parameters,
    ∃ type, SlotType.ofParameter p = .ok type) (taken : List Text) :
    ∃ functions, functionsFrom tools taken = .ok functions :=
  (exists_functionsFrom_iff tools taken).mpr fun tool htool p hp ↦
    .inl (p.exists_slotType_iff.mp (htypes tool htool p hp))

/-! ### Values of arguments -/

private theorem foldl_of_given {keywords : Arguments} {values : List (Option ApiTools.Argument)}
    (h : List.Forall₂ (fun (a : Argument) v ↦ keywords.given? a.identifier = v) as values)
    (args : Arguments) :
    as.foldl
      (fun args a ↦
        match keywords.given? a.identifier with
        | some v => args.set a.name v
        | none => args) args = args.update (assign (as.map (·.name)) values) := by
  induction h generalizing args with
  | nil => rfl
  | @cons a v _ _ hgiven _ ih =>
    rw [List.foldl_cons, ih, List.map_cons, assign_cons, hgiven]
    cases v <;> rfl

private theorem isSome_of_takes {type : SlotType} {required : Bool}
    {v : Option ApiTools.Argument} (h : type.Takes required v) (hrequired : required = true) :
    v.isSome = true := by
  cases v with
  | none =>
    rw [SlotType.Takes, hrequired] at h
    cases h
  | some w => rfl

private theorem isSome_of_isFor {values : List (Option ApiTools.Argument)}
    (hfor : List.Forall₂ (fun p a ↦ Argument.IsFor a p) ps own)
    (h : List.Forall₂ Parameter.Takes ps values) :
    List.Forall₂ (fun (a : Argument) v ↦ a.required = true → v.isSome = true) own values := by
  induction hfor generalizing values with
  | nil =>
    cases h
    exact .nil
  | cons ha _ ih =>
    cases h with
    | cons htakes hrest =>
      obtain ⟨type, -, htakes⟩ := htakes
      exact .cons (fun hrequired ↦ isSome_of_takes htakes (ha.required.symm.trans hrequired))
        (ih hrest)

section Assigned

variable {f : Function} {a : Argument} {keywords : Arguments}
  {values : List (Option ApiTools.Argument)} (hfirst : RequiredFirst f.tool.parameters)
  (hargs : arguments f.tool = .ok f.arguments)

include hfirst hargs

/-- A value that a tool takes is there if its argument is required. -/
theorem collected_take (htakes : f.tool.Takes values) :
    List.Forall₂ (fun (a : Argument) v ↦ a.required = true → v.isSome = true)
      (collected f.arguments) values := by
  obtain ⟨own, hown, hcollected⟩ := collected_arguments hfirst hargs
  obtain ⟨hfor, _, _⟩ := parameterArguments_spec hown
  rw [hcollected, bodyArguments]
  cases htakes with
  | parameters bodiless given =>
    rw [bodiless, if_neg Bool.false_ne_true, List.append_nil]
    exact isSome_of_isFor hfor given
  | withBody taken given last =>
    rw [if_pos taken]
    exact List.rel_append (isSome_of_isFor hfor given) (.cons (isSome_of_takes last) .nil)

variable (hkeywords : keywords.Perm
  (assign ((collected f.arguments).map (·.identifier)) values))

include hkeywords

/-- The value in the place of an argument is the one of its identifier. -/
theorem get?_of_assigned {v : Option ApiTools.Argument}
    (hzip : (a, v) ∈ (collected f.arguments).zip values) :
    keywords.get? a.identifier = v := by
  obtain ⟨-, hnodup⟩ := collected_names hfirst hargs
  have hmem : (a.identifier, v) ∈ ((collected f.arguments).map (·.identifier)).zip values := by
    rw [List.zip_map_left]
    exact List.mem_map.mpr ⟨(a, v), hzip, rfl⟩
  rw [Fields.get?_perm hkeywords (hnodup.sublist (names_assign_sublist _ values)),
    get?_assign hnodup hmem]

/-- Where required parameters come first, an assignment of well-typed values to the identifiers of
a function is collected by the names of the parameters. -/
theorem collect_of_assigned (htakes : f.tool.Takes values) :
    collect f keywords = Fields.ofList
      (assign (f.tool.parameters.map (·.name) ++ InputModel.bodyNames f.tool) values) := by
  have hgiven : List.Forall₂ (fun (a : Argument) v ↦ keywords.given? a.identifier = v)
      (collected f.arguments) values := by
    rw [List.forall₂_iff_zip]
    refine ⟨(collected_take hfirst hargs htakes).length_eq, fun {a v} hzip ↦ ?_⟩
    rw [Arguments.given?_eq_filter, get?_of_assigned hfirst hargs hkeywords hzip]
    cases v with
    | none => rfl
    | some w => rw [Option.filter_some, if_pos (htakes.isGiven (List.of_mem_zip hzip).2)]
  rw [collect, foldl_of_given hgiven, (collected_names hfirst hargs).1]
  rfl

end Assigned

end Emission

end ApiTools
