import ApiTools.Proofs.Fields
import ApiTools.Proofs.Outcome
import ApiTools.Request.Basic

/-!
# Parts of requests

A request is put together from the names and texts of the given path, query and header parameters,
and from its body. What a parameter is given there is the argument of its name.
-/

namespace ApiTools

namespace Tool

/-- More locations have more parameters. -/
theorem parametersIn_subset (tool : Tool) {locations others : List Text}
    (h : locations ⊆ others) : tool.parametersIn locations ⊆ tool.parametersIn others := by
  intro p hp
  rw [parametersIn, List.mem_filter, decide_eq_true_eq] at hp ⊢
  exact ⟨hp.1, h hp.2⟩

/-- The parameters in a location are those that name it. -/
theorem mem_parametersIn {tool : Tool} {p : Parameter} {location : Text} :
    p ∈ tool.parametersIn [location] ↔ p ∈ tool.parameters ∧ p.location = location := by
  simp [parametersIn]

/-- A parameter in some locations is in one of them. -/
theorem exists_of_mem_parametersIn {tool : Tool} {p : Parameter} {locations : List Text}
    (h : p ∈ tool.parametersIn locations) :
    ∃ location ∈ locations, p ∈ tool.parametersIn [location] := by
  rw [parametersIn, List.mem_filter, decide_eq_true_eq] at h
  exact ⟨p.location, h.2, mem_parametersIn.mpr ⟨h.1, rfl⟩⟩

end Tool

namespace Request

variable {tool : Tool} {args : Arguments} {ps : List Parameter} {p : Parameter}
  {authorization : Option Text}

/-! ### Names and texts -/

/-- A template with the placeholders of some names replaced by their texts, one after the other. -/
def substituted (texts : List (Text × Text)) (template : Text) : Text :=
  texts.foldl (fun path t ↦ path.replace (placeholder t.1) t.2) template

/-- A path is filled with the texts of the given path parameters. -/
theorem fillPath_eq (args : Arguments) (ps : List Parameter) (template : Text) :
    fillPath args ps template =
      (queryPairs args ps).map fun texts ↦ substituted texts template := by
  induction ps generalizing template with
  | nil => rfl
  | cons p rest ih =>
    rw [fillPath, queryPairs]
    cases args.given? p.name with
    | none => exact ih template
    | some v =>
      cases hformat : formatted v with
      | error e => simp [bind, Except.bind, Except.map, hformat]
      | ok text =>
        simp only [bind, Except.bind, pure, Except.pure, hformat, ih]
        cases queryPairs args rest <;> rfl

/-- Headers are set to the texts of the given header parameters. -/
theorem headerFields_eq (args : Arguments) (ps : List Parameter) (headers : Fields Text) :
    headerFields args ps headers =
      (queryPairs args ps).map fun texts ↦ headers.update texts := by
  induction ps generalizing headers with
  | nil => rfl
  | cons p rest ih =>
    rw [headerFields, queryPairs]
    cases args.given? p.name with
    | none => exact ih headers
    | some v =>
      cases hformat : formatted v with
      | error e => simp [bind, Except.bind, Except.map, hformat]
      | ok text =>
        simp only [bind, Except.bind, pure, Except.pure, hformat, ih]
        cases queryPairs args rest <;> rfl

/-- The first parameter adds its name and text if it is given. -/
theorem queryPairs_cons_ok {rest : List Parameter} {texts : List (Text × Text)}
    (h : queryPairs args (p :: rest) = .ok texts) :
    (args.given? p.name = none ∧ queryPairs args rest = .ok texts) ∨
      ∃ v text others, args.given? p.name = some v ∧ formatted v = .ok text ∧
        queryPairs args rest = .ok others ∧ texts = (p.name, text) :: others := by
  rw [queryPairs] at h
  cases hgiven : args.given? p.name with
  | none =>
    rw [hgiven] at h
    exact Or.inl ⟨rfl, h⟩
  | some v =>
    rw [hgiven] at h
    obtain ⟨text, hformat, h⟩ := Outcome.bind_ok_iff.mp h
    obtain ⟨others, hothers, h⟩ := Outcome.bind_ok_iff.mp h
    cases h
    exact Or.inr ⟨v, text, others, rfl, hformat, hothers, rfl⟩

/-- The text of a name is that of the argument of a parameter. -/
theorem exists_of_mem_queryPairs {texts : List (Text × Text)} {name text : Text}
    (h : queryPairs args ps = .ok texts) (hmem : (name, text) ∈ texts) :
    ∃ v, args.given? name = some v ∧ formatted v = .ok text := by
  induction ps generalizing texts with
  | nil =>
    cases h
    cases hmem
  | cons p rest ih =>
    rcases queryPairs_cons_ok h with ⟨_, hrest⟩ | ⟨v, t, others, hgiven, hformat, hothers, rfl⟩
    · exact ih hrest hmem
    · rcases List.mem_cons.mp hmem with heq | hmem
      · cases heq
        exact ⟨v, hgiven, hformat⟩
      · exact ih hothers hmem

/-- Every given parameter has the text of its argument. -/
theorem mem_queryPairs {texts : List (Text × Text)} (h : queryPairs args ps = .ok texts)
    (hp : p ∈ ps) {v : Argument} (hgiven : args.given? p.name = some v) :
    ∃ text, formatted v = .ok text ∧ (p.name, text) ∈ texts := by
  induction ps generalizing texts with
  | nil => cases hp
  | cons q rest ih =>
    rcases queryPairs_cons_ok h with ⟨hmissing, hrest⟩ | ⟨w, t, others, hq, hformat, hothers, rfl⟩
    · rcases List.mem_cons.mp hp with rfl | hp
      · rw [hmissing] at hgiven
        cases hgiven
      · exact ih hrest hp
    · rcases List.mem_cons.mp hp with rfl | hp
      · rw [hq, Option.some.injEq] at hgiven
        rw [← hgiven]
        exact ⟨t, hformat, List.mem_cons_self⟩
      · obtain ⟨text, htext, hmem⟩ := ih hothers hp
        exact ⟨text, htext, List.mem_cons_of_mem _ hmem⟩

/-- A parameter has a text exactly if its argument has it. -/
theorem mem_queryPairs_iff {texts : List (Text × Text)} (h : queryPairs args ps = .ok texts)
    (hp : p ∈ ps) (text : Text) :
    (p.name, text) ∈ texts ↔ ∃ v, args.given? p.name = some v ∧ formatted v = .ok text := by
  constructor
  · exact exists_of_mem_queryPairs h
  · rintro ⟨v, hgiven, hformat⟩
    obtain ⟨t, ht, hmem⟩ := mem_queryPairs h hp hgiven
    rw [hformat, Except.ok.injEq] at ht
    rw [ht]
    exact hmem

/-- Names of texts are names of parameters, in order. -/
theorem names_queryPairs_sublist {texts : List (Text × Text)} (h : queryPairs args ps = .ok texts) :
    (Fields.names texts).Sublist (ps.map (·.name)) := by
  induction ps generalizing texts with
  | nil =>
    cases h
    exact List.Sublist.refl []
  | cons p rest ih =>
    rcases queryPairs_cons_ok h with ⟨_, hrest⟩ | ⟨_, _, others, _, _, hothers, rfl⟩
    · exact (ih hrest).cons p.name
    · exact (ih hothers).cons_cons p.name

/-! ### The URL -/

/-- A base URL with a path and a query behind its own one. -/
def urlOf (base path query : Text) : Text :=
  let (address, baseQuery) := base.cut '?'
  let parts := [baseQuery.getD [], query].filter (· ≠ [])
  let url := joinUrl address path
  if parts = [] then url else url ++ "?" ++ Text.join "&" parts

/-- A URL is made of the texts of the given path and query parameters. -/
theorem buildUrl_ok_iff {base url : Text} : buildUrl tool args base = .ok url ↔
    ∃ inPath inQuery query, queryPairs args (tool.parametersIn [Location.path]) = .ok inPath ∧
      queryPairs args (tool.parametersIn [Location.query]) = .ok inQuery ∧
      Query.encode? inQuery = some query ∧
      url = urlOf base (substituted inPath tool.path) query := by
  rw [buildUrl, Outcome.bind_ok_iff]
  simp only [fillPath_eq, Outcome.map_ok_iff]
  constructor
  · rintro ⟨_, ⟨inPath, hpath, rfl⟩, h⟩
    obtain ⟨inQuery, hquery, h⟩ := Outcome.bind_ok_iff.mp h
    cases hencode : Query.encode? inQuery with
    | none =>
      rw [hencode] at h
      cases h
    | some query =>
      rw [hencode] at h
      cases h
      exact ⟨inPath, inQuery, query, hpath, hquery, hencode, rfl⟩
  · rintro ⟨inPath, inQuery, query, hpath, hquery, hencode, rfl⟩
    refine ⟨_, ⟨inPath, hpath, rfl⟩, ?_⟩
    simp only [hquery, bind, Except.bind, hencode]
    rfl

/-! ### The headers -/

/-- The headers of a call with the texts of its header parameters. -/
def headersOf (texts : List (Text × Text)) (authorization : Option Text) : Fields Text :=
  let given : Fields Text := Fields.ofList texts
  let present := given.names.map Text.toLower
  let headers := withDefault present "Content-Type" jsonContent given
  authorize authorization (withDefault present "Accept" jsonContent headers)

/-- The headers are the texts of the parameters that go there, before those for every request. -/
theorem buildHeaders_eq (tool : Tool) (args : Arguments) (authorization : Option Text) :
    buildHeaders tool args authorization =
      (queryPairs args (tool.parametersIn [Location.header])).map fun texts ↦
        headersOf texts authorization := by
  rw [buildHeaders, headerFields_eq]
  cases queryPairs args (tool.parametersIn [Location.header]) <;> rfl

/-- The header of a name gives way to a configured authorization. -/
def Overridden (authorization : Option Text) (name : Text) : Prop :=
  name.toLower = "authorization" ∧ ∃ value, authorization = some value ∧ value ≠ []

private theorem get?_withDefault {present : List Text} {name : Text} (h : name.toLower ∈ present)
    (other value : Text) (headers : Fields Text) :
    (withDefault present other value headers).get? name = headers.get? name := by
  rw [withDefault]
  split
  · rfl
  · next hother =>
    have hne : other ≠ name := by
      rintro rfl
      exact hother h
    rw [Fields.get?_set, if_neg hne]

private theorem get?_authorize {name : Text} (h : ¬Overridden authorization name)
    (headers : Fields Text) :
    (authorize authorization headers).get? name = headers.get? name := by
  cases authorization with
  | none => rfl
  | some value =>
    cases value with
    | nil => rfl
    | cons c rest =>
      have hname : name.toLower ≠ ("authorization" : Text) :=
        fun hlower ↦ h ⟨hlower, _, rfl, List.cons_ne_nil c rest⟩
      have hne : Text.ofString "Authorization" ≠ name := by
        rintro rfl
        exact hname (by decide +kernel)
      have hset : authorize (some (c :: rest)) headers =
          Fields.set (headers.filter fun h ↦ h.1.toLower ≠ ("authorization" : Text))
            "Authorization" (c :: rest) := rfl
      rw [hset, Fields.get?_set, if_neg hne]
      exact Fields.get?_filter fun _ ↦ decide_eq_true hname

/-- The text of a header parameter is the value of its header, unless that gives way. -/
theorem get?_headersOf {texts : List (Text × Text)} {name text : Text}
    (hmem : (name, text) ∈ texts) (hsame : ∀ other, (name, other) ∈ texts → other = text)
    (h : ¬Overridden authorization name) :
    (headersOf texts authorization).get? name = some text := by
  have hgiven : (Fields.ofList texts).get? name = some text := by
    rw [Fields.get?_ofList]
    cases hget : Fields.get? texts.reverse name with
    | none =>
      rw [Fields.get?_eq_none_iff] at hget
      exact absurd (List.mem_map.mpr ⟨_, List.mem_reverse.mpr hmem, rfl⟩) hget
    | some other =>
      rw [hsame other (List.mem_reverse.mp (Fields.mem_of_get? hget))]
  have hpresent : name.toLower ∈ (Fields.ofList texts).names.map Text.toLower :=
    List.mem_map.mpr ⟨name, List.mem_map.mpr ⟨_, Fields.mem_of_get? hgiven, rfl⟩, rfl⟩
  rw [headersOf, get?_authorize h, get?_withDefault hpresent, get?_withDefault hpresent, hgiven]

/-- A header parameter that does not give way has a text in the headers exactly if its argument has
it. -/
theorem get?_headersOf_iff {texts : List (Text × Text)} (h : queryPairs args ps = .ok texts)
    (hp : p ∈ ps) {v : Argument} (hgiven : args.given? p.name = some v)
    (hkept : ¬Overridden authorization p.name) (text : Text) :
    (headersOf texts authorization).get? p.name = some text ↔ formatted v = .ok text := by
  obtain ⟨t, hformat, hmem⟩ := mem_queryPairs h hp hgiven
  have hsame : ∀ other, (p.name, other) ∈ texts → other = t := by
    intro other hother
    obtain ⟨w, hw, hformat'⟩ := exists_of_mem_queryPairs h hother
    rw [hgiven, Option.some.injEq] at hw
    rw [← hw, hformat, Except.ok.injEq] at hformat'
    exact hformat'.symm
  rw [get?_headersOf hmem hsame hkept, hformat, Option.some.injEq, Except.ok.injEq]

/-! ### The body -/

/-- The bytes of an argument that is the body. -/
def sentBody : Argument → Except RequestError Bytes
  | .string t =>
    match Encoding.encodeUtf8? t with
    | some b => .ok b
    | none => .error .unencodable
  | .other b => .ok b
  | v => encodeBody v

/-- A body that is given is sent. -/
theorem buildBody_of_given {v : Argument} (hbody : tool.hasBody = true)
    (hgiven : args.given? "body" = some v) : buildBody tool args = (sentBody v).map some := by
  rw [buildBody, if_pos hbody, hgiven]
  cases v with
  | string t =>
    rw [sentBody]
    dsimp only
    cases Encoding.encodeUtf8? t <;> rfl
  | _ => rfl

/-- Without a body the arguments that go nowhere else are sent. -/
theorem buildBody_of_missing (hbody : tool.hasBody = true)
    (hmissing : args.given? "body" = none) (hunclaimed : unclaimed tool args ≠ []) :
    buildBody tool args = (encodeBody (.object (unclaimed tool args))).map some := by
  rw [buildBody, if_pos hbody, hmissing]
  cases hfields : unclaimed tool args with
  | nil => exact absurd hfields hunclaimed
  | cons f rest => rfl

/-- Without a body and without other arguments none is sent. -/
theorem buildBody_eq_none (h : tool.hasBody = true → args.given? "body" = none ∧
    unclaimed tool args = []) : buildBody tool args = .ok none := by
  rw [buildBody]
  split
  · next hbody =>
    rw [(h hbody).1, (h hbody).2]
  · rfl

/-- A tool without a body sends none. -/
theorem buildBody_of_no_body (h : tool.hasBody = false) : buildBody tool args = .ok none := by
  rw [buildBody, h]
  rfl

/-- What a request is put together from. -/
theorem plan_ok_iff {base : Text} {request : Request} :
    plan tool args base authorization = .ok request ↔
      ∃ url inHeader body, buildUrl tool args base = .ok url ∧
        queryPairs args (tool.parametersIn [Location.header]) = .ok inHeader ∧
        buildBody tool args = .ok body ∧
        request = ⟨url, tool.method, headersOf inHeader authorization, body⟩ := by
  simp only [plan, Outcome.bind_ok_iff, buildHeaders_eq, Outcome.map_ok_iff]
  constructor
  · rintro ⟨url, hurl, _, ⟨inHeader, hheader, rfl⟩, body, hbody, h⟩
    cases h
    exact ⟨url, inHeader, body, hurl, hheader, hbody, rfl⟩
  · rintro ⟨url, inHeader, body, hurl, hheader, hbody, rfl⟩
    exact ⟨url, hurl, _, ⟨inHeader, hheader, rfl⟩, body, hbody, rfl⟩

end Request

end ApiTools
