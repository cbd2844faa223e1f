import ApiTools.Proofs.JsonArguments
import ApiTools.Service

/-!
# Failures within results

A call with arguments that are JSON gives a result, whatever goes wrong with it, unless half of a
surrogate pair stands in the query or in a body that is a string, or a whole number of too many
digits stands outside of the body (`result_iff`). Such a text cannot be encoded and such a number
cannot be written, and the service hands on the error instead of a result. A result says that it is
an error exactly if the request could not be planned, got no reply, or got one with a status from
400 on.
-/

namespace ApiTools

namespace Request

/-- No surrogate stands where a request has to encode the arguments of a call, in the names and the
strings of the query and in a body that is a string, and no whole number of too many digits where it
has to write them, in the path, the query and the headers. -/
structure Sendable (tool : Tool) (args : Arguments) : Prop where
  numbers : ∀ p ∈ tool.parametersIn [Location.path, Location.query, Location.header], ∀ v,
    args.given? p.name = some v → v.NumbersWithin (some Text.digitLimit)
  query : ∀ p ∈ tool.parametersIn [Location.query], ∀ v, args.given? p.name = some v →
    p.name.IsClean ∧ ∀ t, v = .string t → t.IsClean
  body : tool.hasBody = true → ∀ t, args.given? "body" = some (.string t) → t.IsClean

section Planned

variable {tool : Tool} {args : Arguments} {fields : Fields Json} {ps : List Parameter}

/-- JSON has a text outside of the body exactly if its whole numbers can be written. -/
theorem formatted_lift_cases (v : Json) :
    ((Json.lift v : Argument).NumbersWithin (some Text.digitLimit) ∧
        ∃ t, formatted v.lift = .ok t ∧ (v = .string t ∨ t.IsAscii)) ∨
      (¬(Json.lift v : Argument).NumbersWithin (some Text.digitLimit) ∧
        formatted v.lift = .error .unformattable) := by
  rw [← Value.isWritable_false_iff, Value.IsWritable, Value.allNumbers_lift_iff]
  rcases Argument.format_lift_cases v with ⟨hnumbers, t, hformat, ht⟩ | ⟨hnumbers, e, hformat⟩
  · exact .inl ⟨hnumbers, t, by rw [formatted, hformat], ht⟩
  · exact .inr ⟨hnumbers, by rw [formatted, hformat]⟩

/-- All parameters that are given JSON have texts exactly if the whole numbers in it can be
written. -/
theorem queryPairs_cases (fields : Fields Json) (ps : List Parameter) :
    ((∀ p ∈ ps, ∀ v, (Arguments.ofJson fields).given? p.name = some v →
        v.NumbersWithin (some Text.digitLimit)) ∧
        ∃ texts, queryPairs (.ofJson fields) ps = .ok texts) ∨
      ((¬∀ p ∈ ps, ∀ v, (Arguments.ofJson fields).given? p.name = some v →
        v.NumbersWithin (some Text.digitLimit)) ∧
        queryPairs (.ofJson fields) ps = .error .unformattable) := by
  induction ps with
  | nil => exact .inl ⟨nofun, [], rfl⟩
  | cons p rest ih =>
    rw [List.forall_mem_cons]
    cases hgiven : (Arguments.ofJson fields).given? p.name with
    | none =>
      rw [queryPairs, hgiven]
      rcases ih with ⟨hrest, hothers⟩ | ⟨hrest, herror⟩
      · refine .inl ⟨⟨fun v h ↦ ?_, hrest⟩, hothers⟩
        cases h
      · exact .inr ⟨fun h ↦ hrest h.2, herror⟩
    | some v =>
      obtain ⟨w, rfl⟩ := Arguments.exists_of_given? hgiven
      rw [queryPairs, hgiven]
      simp only [Option.some.injEq, forall_eq']
      rcases formatted_lift_cases w with ⟨hnumbers, t, hformat, -⟩ | ⟨hnumbers, hformat⟩
      · rw [hformat]
        rcases ih with ⟨hrest, others, hothers⟩ | ⟨hrest, herror⟩
        · exact .inl ⟨⟨hnumbers, hrest⟩, (p.name, t) :: others, by rw [hothers]; rfl⟩
        · exact .inr ⟨fun h ↦ hrest h.2, by rw [herror]; rfl⟩
      · rw [hformat]
        exact .inr ⟨fun h ↦ hnumbers h.1, rfl⟩

/-- The texts of given parameters are clean if the strings among them are. -/
theorem clean_queryPairs_iff {texts : List (Text × Text)}
    (h : queryPairs (.ofJson fields) ps = .ok texts) :
    (∀ t ∈ texts, t.1.IsClean ∧ t.2.IsClean) ↔
      ∀ p ∈ ps, ∀ v, (Arguments.ofJson fields).given? p.name = some v →
        p.name.IsClean ∧ ∀ t, v = .string t → t.IsClean := by
  constructor
  · intro hclean p hp v hgiven
    obtain ⟨text, hformat, hmem⟩ := mem_queryPairs h hp hgiven
    refine ⟨(hclean _ hmem).1, ?_⟩
    rintro t rfl
    cases hformat
    exact (hclean _ hmem).2
  · rintro hclean ⟨name, text⟩ hmem
    obtain ⟨v, hgiven, hformat⟩ := exists_of_mem_queryPairs h hmem
    obtain ⟨p, hp, rfl⟩ := List.mem_map.mp
      ((names_queryPairs_sublist h).subset (List.mem_map.mpr ⟨_, hmem, rfl⟩))
    obtain ⟨hname, hstring⟩ := hclean p hp v hgiven
    refine ⟨hname, ?_⟩
    obtain ⟨w, rfl⟩ := Arguments.exists_of_given? hgiven
    rcases formatted_lift_cases w with ⟨-, t, ht, hcases⟩ | ⟨-, herror⟩
    · rw [ht, Except.ok.injEq] at hformat
      subst hformat
      rcases hcases with rfl | hascii
      · exact hstring t rfl
      · exact hascii.isClean
    · rw [herror] at hformat
      cases hformat

/-- With texts for all parameters only the encoding of the query can fail. -/
theorem buildUrl_of_texts (base : Text) {inPath inQuery : List (Text × Text)}
    (hpath : queryPairs args (tool.parametersIn [Location.path]) = .ok inPath)
    (hquery : queryPairs args (tool.parametersIn [Location.query]) = .ok inQuery) :
    (∃ url, buildUrl tool args base = .ok url ∧ ∀ t ∈ inQuery, t.1.IsClean ∧ t.2.IsClean) ∨
      (buildUrl tool args base = .error .unencodable ∧
        ¬∀ t ∈ inQuery, t.1.IsClean ∧ t.2.IsClean) := by
  have hfill : fillPath args (tool.parametersIn [Location.path]) tool.path =
      .ok (substituted inPath tool.path) := by
    rw [fillPath_eq, hpath]
    rfl
  rw [← Query.exists_encode?_iff]
  cases hencode : Query.encode? inQuery with
  | none =>
    refine .inr ⟨?_, nofun⟩
    rw [buildUrl, hfill]
    simp only [hquery, bind, Except.bind, hencode]
  | some query =>
    exact .inl ⟨_, buildUrl_ok_iff.mpr ⟨inPath, inQuery, query, hpath, hquery, hencode, rfl⟩,
      query, rfl⟩

private theorem encodeBody_cases (v : Argument) :
    (∃ b, encodeBody v = .ok b) ∨ ∃ reason, encodeBody v = .error (.body reason) := by
  unfold encodeBody
  cases v.canonicalText with
  | ok t => exact .inl ⟨_, rfl⟩
  | error reason => exact .inr ⟨reason, rfl⟩

/-- A body that is no string fails for want of a JSON text at most. -/
theorem sentBody_cases {v : Argument} (h : ∀ t, v = .string t → t.IsClean) :
    (∃ b, sentBody v = .ok b) ∨ ∃ reason, sentBody v = .error (.body reason) := by
  match v with
  | .string t =>
    have hencode : Encoding.encodeUtf8? t = some (t.flatMap Encoding.utf8Bytes) := by
      have hclean := h t rfl
      simpa [Encoding.encodeUtf8?, Text.IsClean] using hclean
    exact .inl ⟨_, by rw [sentBody, hencode]⟩
  | .other b => exact .inl ⟨b, rfl⟩
  | .null => exact encodeBody_cases .null
  | .bool b => exact encodeBody_cases (.bool b)
  | .int i => exact encodeBody_cases (.int i)
  | .float x => exact encodeBody_cases (.float x)
  | .array items => exact encodeBody_cases (.array items)
  | .object fields => exact encodeBody_cases (.object fields)

private theorem sentBody_of_not_clean {t : Text} (h : ¬t.IsClean) :
    sentBody (.string t) = .error .unencodable := by
  have hencode : Encoding.encodeUtf8? t = none := by
    simpa [Encoding.encodeUtf8?, Text.IsClean] using h
  rw [sentBody, hencode]

/-- A body fails for want of a JSON text at most if a string given for it is clean. -/
theorem buildBody_cases
    (h : tool.hasBody = true → ∀ t, args.given? "body" = some (.string t) → t.IsClean) :
    (∃ body, buildBody tool args = .ok body) ∨
      ∃ reason, buildBody tool args = .error (.body reason) := by
  cases hbody : tool.hasBody with
  | false => exact .inl ⟨none, buildBody_of_no_body hbody⟩
  | true =>
    cases hgiven : args.given? "body" with
    | some v =>
      rw [buildBody_of_given hbody hgiven]
      rcases sentBody_cases fun t ht ↦ h hbody t (ht ▸ hgiven) with ⟨b, hb⟩ | ⟨reason, hb⟩
      · exact .inl ⟨some b, by rw [hb]; rfl⟩
      · exact .inr ⟨reason, by rw [hb]; rfl⟩
    | none =>
      by_cases hunclaimed : unclaimed tool args = []
      · exact .inl ⟨none, buildBody_eq_none fun _ ↦ ⟨hgiven, hunclaimed⟩⟩
      · rw [buildBody_of_missing hbody hgiven hunclaimed]
        rcases encodeBody_cases (.object (unclaimed tool args)) with ⟨b, hb⟩ | ⟨reason, hb⟩
        · exact .inl ⟨some b, by rw [hb]; rfl⟩
        · exact .inr ⟨reason, by rw [hb]; rfl⟩

/-- Behind the URL and the headers only the body can fail. -/
theorem plan_of_texts {base url : Text} {inHeader : List (Text × Text)}
    (authorization : Option Text) (hurl : buildUrl tool args base = .ok url)
    (hheader : queryPairs args (tool.parametersIn [Location.header]) = .ok inHeader) :
    plan tool args base authorization = (buildBody tool args).map fun body ↦
      ⟨url, tool.method, headersOf inHeader authorization, body⟩ := by
  rw [plan, hurl, buildHeaders_eq, hheader]
  cases buildBody tool args <;> rfl

/-- Arguments that can be sent make a request, unless the body has no JSON text. -/
theorem plan_of_sendable (h : Sendable tool (.ofJson fields)) (base : Text)
    (authorization : Option Text) :
    (∃ request, plan tool (.ofJson fields) base authorization = .ok request) ∨
      ∃ reason, plan tool (.ofJson fields) base authorization = .error (.body reason) := by
  have htexts : ∀ location ∈ [Location.path, Location.query, Location.header],
      ∃ texts, queryPairs (.ofJson fields) (tool.parametersIn [location]) = .ok texts := by
    intro location hlocation
    rcases queryPairs_cases fields (tool.parametersIn [location]) with ⟨-, htexts⟩ | ⟨hnumbers, -⟩
    · exact htexts
    · refine absurd (fun p hp ↦ h.numbers p ?_) hnumbers
      exact tool.parametersIn_subset (fun _ h ↦ List.mem_singleton.mp h ▸ hlocation) hp
  obtain ⟨inPath, hpath⟩ := htexts Location.path (by simp)
  obtain ⟨inQuery, hquery⟩ := htexts Location.query (by simp)
  obtain ⟨inHeader, hheader⟩ := htexts Location.header (by simp)
  rcases buildUrl_of_texts base hpath hquery with ⟨url, hurl, -⟩ | ⟨-, hunclean⟩
  · rw [plan_of_texts authorization hurl hheader]
    rcases buildBody_cases h.body with ⟨body, hb⟩ | ⟨reason, hb⟩
    · exact .inl ⟨_, by rw [hb]; rfl⟩
    · exact .inr ⟨reason, by rw [hb]; rfl⟩
  · exact absurd ((clean_queryPairs_iff hquery).mpr h.query) hunclean

/-- Other arguments make none, for their surrogates or their numbers. -/
theorem plan_of_not_sendable (h : ¬Sendable tool (.ofJson fields)) (base : Text)
    (authorization : Option Text) :
    ∃ e, plan tool (.ofJson fields) base authorization = .error e ∧ ∀ reason, e ≠ .body reason := by
  rcases queryPairs_cases fields (tool.parametersIn [Location.path]) with
    ⟨hinPath, inPath, hpath⟩ | ⟨-, herror⟩
  rcases queryPairs_cases fields (tool.parametersIn [Location.query]) with
    ⟨hinQuery, inQuery, hquery⟩ | ⟨-, herror⟩
  rcases buildUrl_of_texts base hpath hquery with ⟨url, hurl, hclean⟩ | ⟨hurl, -⟩
  rcases queryPairs_cases fields (tool.parametersIn [Location.header]) with
    ⟨hinHeader, inHeader, hheader⟩ | ⟨-, herror⟩
  -- The query is encoded before the body, so it is the body alone that is left to fail.
  · have hstring : ¬(tool.hasBody = true → ∀ t,
        (Arguments.ofJson fields).given? "body" = some (.string t) → t.IsClean) := by
      refine fun hbody ↦ h ⟨fun p hp ↦ ?_, (clean_queryPairs_iff hquery).mp hclean, hbody⟩
      obtain ⟨location, hlocation, hp⟩ := Tool.exists_of_mem_parametersIn hp
      simp only [List.mem_cons, List.not_mem_nil, or_false] at hlocation
      rcases hlocation with rfl | rfl | rfl
      exacts [hinPath p hp, hinQuery p hp, hinHeader p hp]
    simp only [Classical.not_imp, not_forall] at hstring
    obtain ⟨hbody, t, hgiven, hunclean⟩ := hstring
    refine ⟨.unencodable, ?_, nofun⟩
    rw [plan_of_texts authorization hurl hheader, buildBody_of_given hbody hgiven,
      sentBody_of_not_clean hunclean]
    rfl
  · refine ⟨.unformattable, ?_, nofun⟩
    rw [plan, hurl, buildHeaders_eq, herror]
    rfl
  · refine ⟨.unencodable, ?_, nofun⟩
    rw [plan, hurl]
    rfl
  · refine ⟨.unformattable, ?_, nofun⟩
    rw [plan, buildUrl, fillPath_eq, hpath]
    simp only [herror, bind, Except.bind, Except.map]
  · refine ⟨.unformattable, ?_, nofun⟩
    rw [plan, buildUrl, fillPath_eq, herror]
    rfl

end Planned

end Request

/-- Nothing came back, or a status that tells of a failure. -/
def Reply.Fails : Reply → Prop
  | .failure _ => True
  | .response status _ _ => 400 ≤ status

private theorem Executor.result_cases (reply : Reply) :
    (∃ text, result reply = .ok text ∧ ¬reply.Fails) ∨
      ∃ e, result reply = .error e ∧ reply.Fails := by
  cases reply with
  | failure message => exact .inr ⟨_, rfl, trivial⟩
  | response status content text =>
    rw [result, Reply.Fails]
    split
    · next h => exact .inr ⟨_, rfl, h⟩
    · next h => exact .inl ⟨_, rfl, h⟩

namespace Service

variable {s : Service} {tool : Tool} {replies : Replies}

/-- What went wrong with a call: its request could not be planned, or was not answered well. -/
def Failed (s : Service) (tool : Tool) (args : Arguments) (replies : Replies) : Prop :=
  ∃ base, s.baseUrl = some base ∧
    ((∃ e, Request.plan tool args base s.settings.serviceAuthorization = .error e) ∨
      replies.next.1.Fails)

/-- The description of a call shows its arguments, and so it can show their whole numbers. -/
theorem outcome_of_baseUrl_eq_none (h : s.baseUrl = none) (args : Arguments) :
    ((Value.object args).NumbersWithin (some Text.digitLimit) ∧
        ∃ r, (s.call tool args replies).outcome = .ok r ∧
          (r.isError = true ↔ Failed s tool args replies)) ∨
      (¬(Value.object args).NumbersWithin (some Text.digitLimit) ∧
        (s.call tool args replies).outcome = .error .unformattable) := by
  rw [call, h, description, ← Value.holdsLong_eq_false_iff]
  cases (Value.object args : Argument).holdsLong with
  | true => exact .inr ⟨nofun, rfl⟩
  | false => exact .inl ⟨rfl, _, rfl, by simp [Failed, h]⟩

private theorem outcome_of_planned {args : Arguments} {base : Text} {request : Request}
    (h : s.baseUrl = some base)
    (hplan : Request.plan tool args base s.settings.serviceAuthorization = .ok request) :
    ∃ r, (s.call tool args replies).outcome = .ok r ∧
      (r.isError = true ↔ Failed s tool args replies) := by
  have hfailed : Failed s tool args replies ↔ replies.next.1.Fails := by
    simp [Failed, h, hplan]
  rw [hfailed, call, h]
  simp only [hplan, Executor.execute]
  rcases Executor.result_cases replies.next.1 with ⟨text, hresult, hfails⟩ | ⟨e, hresult, hfails⟩
  · rw [hresult]
    exact ⟨_, rfl, by simp [hfails]⟩
  · rw [hresult]
    exact ⟨_, rfl, by simp [hfails]⟩

/-- A body without a JSON text is told of in a result. -/
theorem outcome_of_body_error {args : Arguments} {base : Text} {reason : Value.Unwritable}
    (h : s.baseUrl = some base)
    (hplan : Request.plan tool args base s.settings.serviceAuthorization = .error (.body reason)) :
    ∃ r, (s.call tool args replies).outcome = .ok r ∧
      (r.isError = true ↔ Failed s tool args replies) := by
  refine ⟨⟨(RequestError.body reason).message, true⟩, ?_, ?_⟩
  · rw [call, h]
    simp only [hplan]
  · exact iff_of_true rfl ⟨base, h, .inl ⟨_, hplan⟩⟩

/-- The arguments of a call can be sent where there is a base URL, and shown where there is
none. -/
def Reportable (s : Service) (tool : Tool) (fields : Fields Json) : Prop :=
  match s.baseUrl with
  | none => (Value.object fields).NumbersWithin (some Text.digitLimit)
  | some _ => Request.Sendable tool (.ofJson fields)

/-- A call with JSON gives a result, or hands on an error that is none of the body. -/
theorem outcome_cases (s : Service) (tool : Tool) (fields : Fields Json) (replies : Replies) :
    (Reportable s tool fields ∧
      ∃ r, (s.call tool (.ofJson fields) replies).outcome = .ok r ∧
        (r.isError = true ↔ Failed s tool (.ofJson fields) replies)) ∨
    (¬Reportable s tool fields ∧
      ∃ e, (s.call tool (.ofJson fields) replies).outcome = .error e) := by
  rw [Reportable]
  cases hbase : s.baseUrl with
  | none =>
    rw [← Arguments.numbersWithin_ofJson_iff]
    exact (outcome_of_baseUrl_eq_none hbase _).imp_right fun ⟨hnumbers, h⟩ ↦ ⟨hnumbers, _, h⟩
  | some base =>
    by_cases hsendable : Request.Sendable tool (.ofJson fields)
    · refine .inl ⟨hsendable, ?_⟩
      rcases Request.plan_of_sendable hsendable base s.settings.serviceAuthorization with
        ⟨request, hplan⟩ | ⟨reason, hplan⟩
      · exact outcome_of_planned hbase hplan
      · exact outcome_of_body_error hbase hplan
    · refine .inr ⟨hsendable, ?_⟩
      obtain ⟨e, hplan, hbody⟩ := Request.plan_of_not_sendable hsendable base
        s.settings.serviceAuthorization
      refine ⟨e, ?_⟩
      rw [call, hbase]
      simp only [hplan]

/-- A call with arguments that are JSON gives a result exactly if calls are let through and the
arguments can be sent: no surrogate stands where the request has to encode them, and no whole number
of too many digits where it has to write them; without a base URL none may stand anywhere in them.
The result is an error exactly if there is a base URL and the request could not be planned, or no
reply or one with a status from 400 on came. -/
theorem result_iff (s : Service) (tool : Tool) (fields : Fields Json) (replies : Replies) :
    ((∃ answer r, s.call? tool (.ofJson fields) replies = some answer ∧ answer.outcome = .ok r) ↔
      0 < s.settings.maxConcurrency ∧ Reportable s tool fields) ∧
    ∀ answer r, s.call? tool (.ofJson fields) replies = some answer → answer.outcome = .ok r →
      (r.isError = true ↔ Failed s tool (.ofJson fields) replies) := by
  by_cases hturn : 0 < s.settings.maxConcurrency
  · have hcall : s.call? tool (.ofJson fields) replies =
        some (s.call tool (.ofJson fields) replies) := by
      rw [call?, if_pos hturn]
    rcases outcome_cases s tool fields replies with ⟨hreportable, r, hr, hfailed⟩ | ⟨hnot, e, he⟩
    · refine ⟨iff_of_true ⟨_, r, hcall, hr⟩ ⟨hturn, hreportable⟩, fun answer r' hanswer hr' ↦ ?_⟩
      rw [hcall, Option.some.injEq] at hanswer
      rw [← hanswer, hr, Except.ok.injEq] at hr'
      rw [← hr']
      exact hfailed
    · have hnone : ∀ answer r, s.call? tool (.ofJson fields) replies = some answer →
          answer.outcome ≠ .ok r := by
        intro answer r hanswer
        rw [hcall, Option.some.injEq] at hanswer
        rw [← hanswer, he]
        exact nofun
      refine ⟨iff_of_false ?_ fun h ↦ hnot h.2, fun answer r hanswer hr' ↦ ?_⟩
      · rintro ⟨answer, r, hanswer, hr'⟩
        exact hnone answer r hanswer hr'
      · exact absurd hr' (hnone answer r hanswer)
  · have hcall : s.call? tool (.ofJson fields) replies = none := by
      rw [call?, if_neg hturn]
    simp [hcall, hturn]

/-- A body of half a surrogate pair gives no result. -/
theorem result_unencodable :
    let s : Service := ⟨{ Settings.standard with serviceUrl := "https://h" }, .standard, none⟩
    let tool : Tool := ⟨"postItems", "Items", "/items", "POST", [], true, false, none⟩
    let fields : Fields Json := [("body", .string [⟨0xD800, by decide⟩])]
    s.baseUrl = some (Text.ofString "https://h") ∧
      ∃ answer, s.call? tool (.ofJson fields) [] = some answer ∧
        answer.outcome = .error .unencodable :=
  ⟨rfl, _, rfl, rfl⟩

end Service

end ApiTools
