import ApiTools.Proofs.PathSubstitution
import ApiTools.Proofs.RequestParts
import ApiTools.Proofs.SlotValues
import ApiTools.Tool.Catalog

/-!
# Places of arguments

A payload gives values to the slots of parameters, which differ in name or place; a request takes
them by name alone. Each text is in its parameter's place exactly if no later slot of the same name
has a value with another text.
-/

namespace ApiTools

namespace Request

open Placeholder

variable {tool : Tool} {model : InputModel} {payload args : Arguments} {p : Parameter}
  {authorization : Option Text}

/-- The values that a payload gives to the parameters of a tool by their slots. -/
def Gives (tool : Tool) (model : InputModel) (payload : Arguments) (p : Parameter)
    (v : Argument) : Prop :=
  ∃ fields slot, InputModel.definitions tool = .ok fields ∧
    (p, slot) ∈ tool.parameters.zip fields ∧ slot ∈ model.slots ∧ slot.value? payload = some v

/-- The texts of values are where their parameters go: among the texts put into the path or the
query, or in the headers unless a configured authorization is there. -/
structure InPlace (inPath inQuery : List (Text × Text)) (headers : Fields Text)
    (authorization : Option Text) (gives : Parameter → Argument → Prop) : Prop where
  path : ∀ p v text, p.location = Location.path → gives p v → formatted v = .ok text →
    (p.name, text) ∈ inPath
  query : ∀ p v text, p.location = Location.query → gives p v → formatted v = .ok text →
    (p.name, text) ∈ inQuery
  header : ∀ p v text, p.location = Location.header → ¬Overridden authorization p.name →
    gives p v → formatted v = .ok text → headers.get? p.name = some text

/-- Wherever the text of a value given to a parameter is to be sent, the last value given under the
parameter's name has that text too. -/
def Unreplaced (tool : Tool) (model : InputModel) (payload : Arguments)
    (authorization : Option Text) : Prop :=
  ∀ p v w text, p.location ∈ Catalog.knownLocations →
    ¬(p.location = Location.header ∧ Overridden authorization p.name) →
    Gives tool model payload p v → formatted v = .ok text →
    model.lastValue? payload p.name = some w → formatted w = .ok text

/-- A body is none or that of an object whose names are those of header parameters. -/
def OnlyHeaders (tool : Tool) (body : Option Bytes) : Prop :=
  body = none ∨ ∃ fields bytes, encodeBody (.object fields) = .ok bytes ∧ body = some bytes ∧
    ∀ name ∈ Fields.names fields, ∃ p ∈ tool.parametersIn [Location.header], p.name = name

/-- The text that the placeholder of a name gets is the first one put into the path under it. -/
theorem textOf_eq_get? {ps : List Parameter} {texts : List (Text × Text)}
    (h : queryPairs args ps = .ok texts) (name : Text) :
    textOf args ps name = Fields.get? texts name := by
  induction ps generalizing texts with
  | nil =>
    cases h
    rfl
  | cons p rest ih =>
    rcases queryPairs_cons_ok h with
      ⟨hgiven, hrest⟩ | ⟨v, text, others, hgiven, hformat, hothers, rfl⟩
    · rw [← ih hrest]
      by_cases hname : name = p.name
      · rw [textOf, textOf, hname, hgiven]
        simp
      · simp [textOf, hname]
    · rw [Fields.get?_cons, ← ih hothers]
      by_cases hname : name = p.name
      · rw [textOf, hname, hgiven]
        simp [hformat, Except.toOption]
      · simp [textOf, hname, Ne.symm hname]

/-- Parameters have texts exactly if every given argument among theirs has one. -/
theorem exists_queryPairs_iff (args : Arguments) (ps : List Parameter) :
    (∃ texts, queryPairs args ps = .ok texts) ↔ AllFormatted args ps := by
  constructor
  · rintro ⟨texts, h⟩ p hp v hgiven
    obtain ⟨text, htext, _⟩ := mem_queryPairs h hp hgiven
    exact ⟨text, htext⟩
  · intro h
    induction ps with
    | nil => exact ⟨[], rfl⟩
    | cons p rest ih =>
      obtain ⟨hp, hrest⟩ := List.forall_mem_cons.mp h
      obtain ⟨others, hothers⟩ := ih hrest
      rw [queryPairs]
      cases hgiven : args.given? p.name with
      | none => exact ⟨others, hothers⟩
      | some v =>
        obtain ⟨text, htext⟩ := hp v hgiven
        simp only [htext, hothers, bind, Except.bind, pure, Except.pure]
        exact ⟨_, rfl⟩

/-- The placeholders of a path are filled with the texts put into it, if these do not disturb each
other. -/
theorem substituted_eq_filled {ps : List Parameter} {inPath : List (Text × Text)} {template : Text}
    (h : queryPairs args ps = .ok inPath) (hnames : (ps.map (·.name)).Nodup)
    (hplain : ∀ p ∈ ps, IsPlain p.name) (hundisturbed : Undisturbed args ps template) :
    substituted inPath template = filled (Fields.get? inPath) template := by
  have hformatted : AllFormatted args ps := (exists_queryPairs_iff args ps).mp ⟨inPath, h⟩
  have hfilled := fillPath_eq_filled hnames hplain hformatted hundisturbed (List.prefix_refl ps)
  rw [fillPath_eq, h, funext (textOf_eq_get? h), Except.map, Except.ok.injEq] at hfilled
  exact hfilled

section Places

variable {base : Text} {request : Request} {inPath inQuery inHeader : List (Text × Text)}

section Gives

variable {v w : Argument} (haccepted : model.arguments (.object payload) = .ok args)
  (hgives : Gives tool model payload p v)

include hgives

/-- The name of a given parameter has a last value. -/
theorem exists_last_of_gives : ∃ w, model.lastValue? payload p.name = some w := by
  obtain ⟨fields, slot, hfields, hzip, hslot, hvalue⟩ := hgives
  rw [← (InputModel.isFor_of_mem_zip hfields hzip).2.2.target]
  exact InputModel.exists_lastValue? hslot hvalue

/-- A given parameter is one of the tool. -/
theorem mem_of_gives : p ∈ tool.parameters := by
  obtain ⟨fields, slot, hfields, hzip, -, -⟩ := hgives
  exact (InputModel.isFor_of_mem_zip hfields hzip).1

include haccepted

variable (hlast : model.lastValue? payload p.name = some w)

include hlast

/-- A text of a given parameter's place is that of the last value of its name. -/
theorem mem_texts_iff {location : Text} {texts : List (Text × Text)}
    (htexts : queryPairs args (tool.parametersIn [location]) = .ok texts)
    (hlocation : p.location = location) (text : Text) :
    (p.name, text) ∈ texts ↔ formatted w = .ok text := by
  have hp := mem_of_gives hgives
  rw [mem_queryPairs_iff htexts (Tool.mem_parametersIn.mpr ⟨hp, hlocation⟩),
    InputModel.given?_arguments haccepted, hlast]
  simp

/-- The header of a given parameter has the text of the last value of its name. -/
theorem get?_header_iff
    (htexts : queryPairs args (tool.parametersIn [Location.header]) = .ok inHeader)
    (hlocation : p.location = Location.header) (hkept : ¬Overridden authorization p.name)
    (text : Text) :
    (headersOf inHeader authorization).get? p.name = some text ↔ formatted w = .ok text := by
  have hp := mem_of_gives hgives
  exact get?_headersOf_iff htexts (Tool.mem_parametersIn.mpr ⟨hp, hlocation⟩)
    ((InputModel.given?_arguments haccepted p.name).trans hlast) hkept text

end Gives

/-- In each place the texts are those of the last values of their names. -/
theorem inPlace_iff (haccepted : model.arguments (.object payload) = .ok args)
    (hpath : queryPairs args (tool.parametersIn [Location.path]) = .ok inPath)
    (hquery : queryPairs args (tool.parametersIn [Location.query]) = .ok inQuery)
    (hheader : queryPairs args (tool.parametersIn [Location.header]) = .ok inHeader) :
    InPlace inPath inQuery (headersOf inHeader authorization) authorization
        (Gives tool model payload) ↔ Unreplaced tool model payload authorization := by
  constructor
  · intro hplace p v w text hlocation hkept hgives hformat hlast
    simp only [Catalog.knownLocations, List.mem_cons, List.not_mem_nil, or_false] at hlocation
    rcases hlocation with hloc | hloc | hloc
    · exact (mem_texts_iff haccepted hgives hlast hpath hloc text).mp
        (hplace.path p v text hloc hgives hformat)
    · exact (mem_texts_iff haccepted hgives hlast hquery hloc text).mp
        (hplace.query p v text hloc hgives hformat)
    · have hover : ¬Overridden authorization p.name := fun h ↦ hkept ⟨hloc, h⟩
      exact (get?_header_iff haccepted hgives hlast hheader hloc hover text).mp
        (hplace.header p v text hloc hover hgives hformat)
  · intro hsame
    constructor
    · intro p v text hloc hgives hformat
      obtain ⟨w, hlast⟩ := exists_last_of_gives hgives
      apply (mem_texts_iff haccepted hgives hlast hpath hloc text).mpr
      have hkept : p.location ≠ Location.header := by
        rw [hloc]
        decide
      exact hsame p v w text (by simp [hloc, Catalog.knownLocations]) (fun h ↦ hkept h.1) hgives
        hformat hlast
    · intro p v text hloc hgives hformat
      obtain ⟨w, hlast⟩ := exists_last_of_gives hgives
      apply (mem_texts_iff haccepted hgives hlast hquery hloc text).mpr
      have hkept : p.location ≠ Location.header := by
        rw [hloc]
        decide
      exact hsame p v w text (by simp [hloc, Catalog.knownLocations]) (fun h ↦ hkept h.1) hgives
        hformat hlast
    · intro p v text hloc hover hgives hformat
      obtain ⟨w, hlast⟩ := exists_last_of_gives hgives
      apply (get?_header_iff haccepted hgives hlast hheader hloc hover text).mpr
      exact hsame p v w text (by simp [hloc, Catalog.knownLocations]) (fun h ↦ hover h.2) hgives
        hformat hlast

/-- What a payload without undeclared arguments leads to are values of slots. -/
private theorem exists_slot_of_mem (haccepted : model.arguments (.object payload) = .ok args)
    (hdeclared : model.undeclared payload = []) {name : Text} (hname : name ∈ args.names) :
    ∃ slot ∈ model.slots, slot.target = name ∧ ∃ w, slot.value? payload = some w := by
  rw [(InputModel.arguments_ok_iff.mp haccepted).2, InputModel.given, hdeclared, List.append_nil,
    Fields.mem_names_ofList] at hname
  obtain ⟨f, hf, rfl⟩ := List.mem_map.mp hname
  obtain ⟨slot, hslot, hvalue⟩ := List.mem_filterMap.mp hf
  obtain ⟨w, hw, rfl⟩ := Option.map_eq_some_iff.mp hvalue
  exact ⟨slot, hslot, rfl, w, hw⟩

/-- Without a body and undeclared arguments, unclaimed ones are those of header parameters. -/
private theorem header_of_unclaimed (hmodel : InputModel.ofTool tool = .ok model)
    (haccepted : model.arguments (.object payload) = .ok args)
    (hbody : ∀ slot ∈ InputModel.bodySlots tool, slot.value? payload = none)
    (hdeclared : model.undeclared payload = [])
    (hknown : ∀ p ∈ tool.parameters, p.location ∈ Catalog.knownLocations) {name : Text}
    (hname : name ∈ (unclaimed tool args).names) :
    ∃ p ∈ tool.parametersIn [Location.header], p.name = name := by
  obtain ⟨f, hf, rfl⟩ := List.mem_map.mp hname
  obtain ⟨hargs, hfree⟩ := List.mem_filter.mp hf
  have hunclaimed : f.1 ∉
      (tool.parametersIn [Location.path, Location.query]).map (·.name) :=
    of_decide_eq_true (Bool.and_eq_true_iff.mp hfree).1
  obtain ⟨slot, hslot, htarget, w, hw⟩ :=
    exists_slot_of_mem haccepted hdeclared (List.mem_map.mpr ⟨f, hargs, rfl⟩)
  obtain ⟨fields, hfields, hslots⟩ := InputModel.definitions_of_ofTool hmodel
  obtain ⟨own, rfl, halloc⟩ := InputModel.allocation_of_definitions hfields
  rw [hslots] at hslot
  rcases List.mem_append.mp ((InputModel.kept_sublist _).subset hslot) with hslot | hslot
  · obtain ⟨p, hzip⟩ := halloc.exists_parameter hslot
    have hp : p ∈ tool.parameters := (List.of_mem_zip hzip).1
    have hfor : p.name = f.1 := by rw [← htarget, (halloc.isFor_of_mem_zip hzip).target]
    refine ⟨p, Tool.mem_parametersIn.mpr ⟨hp, ?_⟩, hfor⟩
    have hlocation := hknown p hp
    simp only [Catalog.knownLocations, List.mem_cons, List.not_mem_nil, or_false] at hlocation
    have hother : p.location ∉ [Location.path, Location.query] := by
      intro hmem
      exact hunclaimed (List.mem_map.mpr
        ⟨p, List.mem_filter.mpr ⟨hp, decide_eq_true hmem⟩, hfor⟩)
    simp only [List.mem_cons, List.not_mem_nil, or_false, not_or] at hother
    rcases hlocation with hloc | hloc | hloc
    · exact absurd hloc hother.1
    · exact absurd hloc hother.2
    · exact hloc
  · rw [hbody slot hslot] at hw
    cases hw

/-- Without a body and undeclared arguments, the body is of header parameters unless a parameter of
that name has a value, which goes out as the body. -/
theorem onlyHeaders_iff {body : Option Bytes} (hmodel : InputModel.ofTool tool = .ok model)
    (haccepted : model.arguments (.object payload) = .ok args)
    (hsent : buildBody tool args = .ok body)
    (hbody : tool.hasBody = true → payload.given? "body" = none)
    (hdeclared : model.undeclared payload = [])
    (hknown : ∀ p ∈ tool.parameters, p.location ∈ Catalog.knownLocations) :
    OnlyHeaders tool body ↔ ∀ w bytes, tool.hasBody = true →
      model.lastValue? payload "body" = some w → sentBody w = .ok bytes →
      OnlyHeaders tool (some bytes) := by
  by_cases hhas : tool.hasBody = true
  · have hargument := InputModel.given?_arguments haccepted "body"
    cases hlast : model.lastValue? payload "body" with
    | some w =>
      rw [hlast] at hargument
      rw [buildBody_of_given hhas hargument] at hsent
      obtain ⟨bytes, hbytes, rfl⟩ := Outcome.map_ok_iff.mp hsent
      constructor
      · intro honly w' bytes' _ hw hbytes'
        cases hw
        rw [hbytes, Except.ok.injEq] at hbytes'
        rwa [← hbytes']
      · intro honly
        exact honly w bytes hhas rfl hbytes
    | none =>
      rw [hlast] at hargument
      refine ⟨fun _ w bytes _ hw _ ↦ (nomatch hw), fun _ ↦ ?_⟩
      by_cases hunclaimed : unclaimed tool args = []
      · rw [buildBody_eq_none fun _ ↦ ⟨hargument, hunclaimed⟩, Except.ok.injEq] at hsent
        exact Or.inl hsent.symm
      · rw [buildBody_of_missing hhas hargument hunclaimed] at hsent
        obtain ⟨bytes, hbytes, rfl⟩ := Outcome.map_ok_iff.mp hsent
        refine Or.inr ⟨unclaimed tool args, bytes, hbytes, rfl, fun name hname ↦ ?_⟩
        refine header_of_unclaimed hmodel haccepted ?_ hdeclared hknown hname
        intro slot hslot
        obtain ⟨_, rfl⟩ := InputModel.mem_bodySlots.mp hslot
        rw [Slot.value?, Slot.given?_of_otherName rfl, hbody hhas, Option.bind_none]
  · rw [buildBody_eq_none fun h ↦ absurd h hhas, Except.ok.injEq] at hsent
    refine ⟨fun _ w bytes h ↦ absurd h hhas, fun _ ↦ Or.inl hsent.symm⟩

end Places

/-- Parameters of one place that differ in name or place differ in name. -/
theorem names_parametersIn_nodup
    (hplaces : (tool.parameters.map fun p ↦ (p.name, p.location)).Nodup) (location : Text) :
    ((tool.parametersIn [location]).map (·.name)).Nodup := by
  have hin : ((tool.parametersIn [location]).map fun p ↦ (p.name, p.location)).Nodup :=
    hplaces.sublist (List.filter_sublist.map _)
  rw [List.Nodup, List.pairwise_map] at hin ⊢
  refine hin.imp_of_mem fun hp hq hne hname ↦ hne ?_
  rw [hname, (Tool.mem_parametersIn.mp hp).2, (Tool.mem_parametersIn.mp hq).2]

/-- The text of every given parameter is in its own place exactly if the last value of its name has
the same text. Without a body and undeclared arguments, the body is of header parameters exactly if
the last value of that name, which goes out instead, happens to be. -/
theorem arguments_in_place_iff (tool : Tool) (model : InputModel) (payload args : Arguments)
    (base : Text) (authorization : Option Text) (request : Request)
    (hplaces : (tool.parameters.map fun p ↦ (p.name, p.location)).Nodup)
    (hmodel : InputModel.ofTool tool = .ok model)
    (haccepted : model.arguments (.object payload) = .ok args)
    (hplan : plan tool args base authorization = .ok request) :
    ∃ inPath inQuery : Fields Text, ∃ query : Text,
      queryPairs args (tool.parametersIn [Location.path]) = .ok inPath ∧ inPath.Distinct ∧
      queryPairs args (tool.parametersIn [Location.query]) = .ok inQuery ∧ inQuery.Distinct ∧
      Query.encode? inQuery = some query ∧
      request.url = urlOf base (substituted inPath tool.path) query ∧
      ((∀ p ∈ tool.parametersIn [Location.path], IsPlain p.name) →
        Undisturbed args (tool.parametersIn [Location.path]) tool.path →
        substituted inPath tool.path = filled inPath.get? tool.path) ∧
      (InPlace inPath inQuery request.headers authorization (Gives tool model payload) ↔
        Unreplaced tool model payload authorization) ∧
      ((tool.hasBody = true → payload.given? "body" = none) → model.undeclared payload = [] →
        (∀ p ∈ tool.parameters, p.location ∈ Catalog.knownLocations) →
        (OnlyHeaders tool request.body ↔ ∀ w bytes, tool.hasBody = true →
          model.lastValue? payload "body" = some w → sentBody w = .ok bytes →
          OnlyHeaders tool (some bytes))) := by
  obtain ⟨url, inHeader, body, hurl, hheader, hbody, rfl⟩ := plan_ok_iff.mp hplan
  obtain ⟨inPath, inQuery, query, hpath, hquery, hencode, rfl⟩ := buildUrl_ok_iff.mp hurl
  have hpathNames := names_parametersIn_nodup hplaces Location.path
  have hqueryNames := names_parametersIn_nodup hplaces Location.query
  refine ⟨inPath, inQuery, query, hpath, hpathNames.sublist (names_queryPairs_sublist hpath),
    hquery, hqueryNames.sublist (names_queryPairs_sublist hquery), hencode, rfl, ?_, ?_, ?_⟩
  · exact substituted_eq_filled hpath hpathNames
  · exact inPlace_iff haccepted hpath hquery hheader
  · exact onlyHeaders_iff hmodel haccepted hbody

/-- What a payload gives under the name that callers are told to use is given to the parameter. -/
theorem gives_of_exposed {fields : List Slot} {slot : Slot} {v w : Argument}
    (hfields : InputModel.definitions tool = .ok fields)
    (hzip : (p, slot) ∈ tool.parameters.zip fields) (hslot : slot ∈ model.slots)
    (hgiven : payload.given? slot.exposed = some v) (hread : slot.type.read v = .ok w) :
    Gives tool model payload p w := by
  rw [Arguments.given?_eq_filter, Option.filter_eq_some_iff] at hgiven
  refine ⟨fields, slot, hfields, hzip, hslot, Slot.value?_eq_some_iff.mpr ⟨v, ?_, hread⟩⟩
  rw [Slot.given?_of_get?_exposed hgiven.1, Option.filter_some, if_pos hgiven.2]

/-- A parameter of a name in the path or the query. -/
def named (name location : Text) (required : Bool) : Parameter where
  name := name
  sanitizedName := name
  location := location
  required := required

/-- A tool with parameters of one name in the path and in the query. -/
def items : Tool where
  id := "getItems_id"
  description := "An item"
  path := "/items/{id}"
  method := "GET"
  parameters := [named "id" Location.path true, named "id" Location.query false]

/-- The model of its arguments. -/
def itemsModel : InputModel where
  name := "getItems_idInput"
  slots := [⟨"id", some "id", "id", .string, true, none⟩,
    ⟨"id_2", none, "id", .string, false, none⟩]

/-- The request for an item. -/
def itemsRequest (url : Text) : Request where
  url := url
  method := "GET"
  headers := [("Content-Type", jsonContent), ("Accept", jsonContent)]
  body := none

/-- Values with one text are both in their places. -/
theorem arguments_in_place_items :
    (items.parameters.map fun p ↦ (p.name, p.location)).Nodup ∧
      InputModel.ofTool items = .ok itemsModel ∧
      itemsModel.arguments (.object [("id", .string "a"), ("id_2", .string "a")] : Argument) =
        .ok [("id", .string "a")] ∧
      plan items [("id", .string "a")] "https://h" none =
        .ok (itemsRequest "https://h/items/a?id=a") ∧
      ∃ inPath inQuery : Fields Text, ∃ query : Text,
        Text.ofString "https://h/items/a?id=a" =
          urlOf "https://h" (substituted inPath items.path) query ∧
        InPlace inPath inQuery (itemsRequest "https://h/items/a?id=a").headers none
          (Gives items itemsModel [("id", .string "a"), ("id_2", .string "a")]) := by
  have hplaces : (items.parameters.map fun p ↦ (p.name, p.location)).Nodup := by decide +kernel
  refine ⟨hplaces, rfl, rfl, rfl, ?_⟩
  obtain ⟨inPath, inQuery, query, _, _, _, _, _, hurl, _, hplace, _⟩ :=
    arguments_in_place_iff items itemsModel [("id", .string "a"), ("id_2", .string "a")]
      [("id", .string "a")] "https://h" none (itemsRequest "https://h/items/a?id=a") hplaces rfl
      rfl rfl
  refine ⟨inPath, inQuery, query, hurl, hplace.mpr ?_⟩
  rintro p v w text _ _ ⟨fields, slot, hfields, hzip, -, hvalue⟩ hformat hlast
  cases hfields
  rcases List.mem_pair.mp hzip with heq | heq
  · cases heq
    cases hvalue
    cases hlast
    exact hformat
  · cases heq
    cases hvalue
    cases hlast
    exact hformat

/-- The value for the query takes the place of the one for the path. -/
theorem path_value_replaced :
    (items.parameters.map fun p ↦ (p.name, p.location)).Nodup ∧
      InputModel.ofTool items = .ok itemsModel ∧
      itemsModel.arguments (.object [("id", .string "a"), ("id_2", .string "b")] : Argument) =
        .ok [("id", .string "b")] ∧
      plan items [("id", .string "b")] "https://h" none =
        .ok (itemsRequest "https://h/items/b?id=b") ∧
      Gives items itemsModel [("id", .string "a"), ("id_2", .string "b")]
        (named "id" Location.path true) (.string "a") ∧
      ∀ inPath inQuery headers, queryPairs [("id", .string "b")]
          (items.parametersIn [Location.path]) = .ok inPath →
        ¬InPlace inPath inQuery headers none
          (Gives items itemsModel [("id", .string "a"), ("id_2", .string "b")]) := by
  have hgives : Gives items itemsModel [("id", .string "a"), ("id_2", .string "b")]
      (named "id" Location.path true) (.string "a") :=
    gives_of_exposed rfl List.mem_cons_self List.mem_cons_self rfl rfl
  refine ⟨by decide +kernel, rfl, rfl, rfl, hgives, ?_⟩
  intro inPath inQuery headers hpath hplace
  have hmem := hplace.path _ _ "a" rfl hgives rfl
  cases hpath
  cases List.mem_singleton.mp hmem

end Request

end ApiTools
