import ApiTools.Proofs.ArgumentPlaces

/-!
# Header policy

Names of headers are compared in lower case. The headers of a call are those of the given header
parameters, a type of content and a wanted type unless one of these names them, and the configured
authorization, which no header parameter gets past (`headers_sent_iff`).
-/

namespace ApiTools

namespace Request

variable {tool : Tool} {args : Arguments} {authorization : Option Text}
  {texts : List (Text × Text)}

/-- A given header parameter has this name in some letter case. -/
def NamesHeader (tool : Tool) (args : Arguments) (name : Text) : Prop :=
  ∃ p ∈ tool.parametersIn [Location.header], args.given? p.name ≠ none ∧ p.name.toLower = name

/-- The headers that are meant to be sent. -/
inductive Sends (tool : Tool) (args : Arguments) (authorization : Option Text) :
    Text → Text → Prop where
  | argument {p : Parameter} {v : Argument} {text : Text}
      (declared : p ∈ tool.parametersIn [Location.header]) (given : args.given? p.name = some v)
      (formats : formatted v = .ok text) (kept : ¬Overridden authorization p.name) :
      Sends tool args authorization p.name text
  | contentType (unnamed : ¬NamesHeader tool args "content-type") :
      Sends tool args authorization "Content-Type" jsonContent
  | accept (unnamed : ¬NamesHeader tool args "accept") :
      Sends tool args authorization "Accept" jsonContent
  | authorization {value : Text} (configured : authorization = some value)
      (nonEmpty : value ≠ []) : Sends tool args authorization "Authorization" value

/-- Headers that keep to the policy: they are the ones meant to be sent, each once. A configured
authorization is the only one in any letter case, and names of parameters that differ in more than
letter case make headers that do. -/
structure FollowsPolicy (tool : Tool) (args : Arguments) (authorization : Option Text)
    (headers : Fields Text) : Prop where
  sent : ∀ name value, (name, value) ∈ headers ↔ Sends tool args authorization name value
  distinct : headers.Distinct
  authorized : ∀ value, authorization = some value → value ≠ [] →
    headers.filter (fun h ↦ h.1.toLower = ("authorization" : Text)) =
      [(Text.ofString "Authorization", value)]
  apart : ((tool.parametersIn [Location.header]).map fun p ↦ p.name.toLower).Nodup →
    (headers.names.map Text.toLower).Nodup

private theorem toLower_contentType :
    (Text.ofString "Content-Type").toLower = Text.ofString "content-type" := by
  decide +kernel

private theorem toLower_accept : (Text.ofString "Accept").toLower = Text.ofString "accept" := by
  decide +kernel

private theorem toLower_authorization :
    (Text.ofString "Authorization").toLower = Text.ofString "authorization" := by
  decide +kernel

private theorem not_overridden_of_toLower {name lower : Text} (hname : name.toLower = lower)
    (hlower : lower ≠ Text.ofString "authorization") : ¬Overridden authorization name :=
  fun h ↦ hlower (hname.symm.trans h.1)

/-- The headers that are added if nothing present names them. -/
def defaultHeaders (present : List Text) : Fields Text :=
  [(Text.ofString "Content-Type", jsonContent), (Text.ofString "Accept", jsonContent)].filter
    fun h ↦ h.1.toLower ∉ present

/-- A header that nothing present names goes to the end. -/
theorem withDefault_eq {present : List Text} {name : Text} {headers : Fields Text}
    (hnew : name.toLower ∉ present → name ∉ headers.names) (value : Text) :
    withDefault present name value headers =
      headers ++ [(name, value)].filter fun h ↦ h.1.toLower ∉ present := by
  rw [withDefault]
  split
  · next hpresent => simp [hpresent]
  · next hmissing => simp [hmissing, Fields.set_eq_append (hnew hmissing)]

private theorem withDefaults_eq (given : Fields Text) :
    withDefault (given.names.map Text.toLower) "Accept" jsonContent
        (withDefault (given.names.map Text.toLower) "Content-Type" jsonContent given) =
      given ++ defaultHeaders (given.names.map Text.toLower) := by
  have hnew : ∀ name : Text, name.toLower ∉ given.names.map Text.toLower → name ∉ given.names :=
    fun name hmissing hmem ↦ hmissing (List.mem_map_of_mem hmem)
  have hother : Text.ofString "Accept" ≠ Text.ofString "Content-Type" := by decide
  rw [withDefault_eq (hnew _), withDefault_eq, List.append_assoc, ← List.filter_append]
  · rfl
  · intro hmissing hmem
    rw [Fields.names_append, List.mem_append] at hmem
    rcases hmem with hmem | hmem
    · exact hnew _ hmissing hmem
    · obtain ⟨h, hh, hname⟩ := List.mem_map.mp hmem
      rw [List.mem_singleton.mp (List.mem_filter.mp hh).1] at hname
      exact hother hname.symm

/-- The headers of a configured authorization: all others, then its own. -/
theorem authorize_eq {value : Text} (hvalue : value ≠ []) (headers : Fields Text) :
    authorize (some value) headers =
      headers.filter (fun h ↦ h.1.toLower ≠ ("authorization" : Text)) ++
        [(Text.ofString "Authorization", value)] := by
  cases value with
  | nil => exact absurd rfl hvalue
  | cons c rest =>
    refine Fields.set_eq_append (fun hmem ↦ ?_) _
    obtain ⟨h, hh, hname⟩ := List.mem_map.mp hmem
    refine of_decide_eq_true (List.mem_filter.mp hh).2 ?_
    rw [hname]
    exact toLower_authorization

/-- The headers are left as they are, or make way for an authorization. -/
theorem authorize_cases (authorization : Option Text) (headers : Fields Text) :
    ((∀ value, authorization = some value → value = []) ∧
        authorize authorization headers = headers) ∨
      ∃ value, authorization = some value ∧ value ≠ [] ∧
        authorize authorization headers =
          headers.filter (fun h ↦ h.1.toLower ≠ ("authorization" : Text)) ++
            [(Text.ofString "Authorization", value)] := by
  cases authorization with
  | none => exact .inl ⟨nofun, rfl⟩
  | some value =>
    by_cases hvalue : value = []
    · subst hvalue
      exact .inl ⟨fun _ h ↦ (Option.some.inj h).symm, rfl⟩
    · exact .inr ⟨value, rfl, hvalue, authorize_eq hvalue headers⟩

/-- The headers of a call: those given and the defaults, with the authorization in its place. -/
theorem headersOf_eq (texts : List (Text × Text)) (authorization : Option Text) :
    headersOf texts authorization = authorize authorization (Fields.ofList texts ++
      defaultHeaders ((Fields.ofList texts).names.map Text.toLower)) := by
  rw [← withDefaults_eq]
  rfl

private theorem mem_defaultHeaders {present : List Text} {name text : Text} :
    (name, text) ∈ defaultHeaders present ↔ text = jsonContent ∧
      (name = Text.ofString "Content-Type" ∧ Text.ofString "content-type" ∉ present ∨
        name = Text.ofString "Accept" ∧ Text.ofString "accept" ∉ present) := by
  rw [defaultHeaders, List.mem_filter, List.mem_pair, Prod.mk.injEq, Prod.mk.injEq,
    decide_eq_true_eq]
  constructor
  · rintro ⟨⟨rfl, rfl⟩ | ⟨rfl, rfl⟩, hmissing⟩
    · exact ⟨rfl, .inl ⟨rfl, by rwa [toLower_contentType] at hmissing⟩⟩
    · exact ⟨rfl, .inr ⟨rfl, by rwa [toLower_accept] at hmissing⟩⟩
  · rintro ⟨rfl, ⟨rfl, hmissing⟩ | ⟨rfl, hmissing⟩⟩
    · exact ⟨.inl ⟨rfl, rfl⟩, by rwa [toLower_contentType]⟩
    · exact ⟨.inr ⟨rfl, rfl⟩, by rwa [toLower_accept]⟩

/-- A header is one of those before that does not give way, or the authorization. -/
theorem mem_authorize {headers : Fields Text} {name text : Text} :
    (name, text) ∈ authorize authorization headers ↔
      ((name, text) ∈ headers ∧ ¬Overridden authorization name) ∨
        (authorization = some text ∧ text ≠ [] ∧ name = Text.ofString "Authorization") := by
  rcases authorize_cases authorization headers with
    ⟨hvalue, hheaders⟩ | ⟨value, rfl, hne, hheaders⟩
  · rw [hheaders]
    have hkept : ¬Overridden authorization name := fun ⟨_, value, hsome, hne⟩ ↦
      hne (hvalue value hsome)
    have hunset : ¬(authorization = some text ∧ text ≠ [] ∧
        name = Text.ofString "Authorization") := fun ⟨hsome, hne, _⟩ ↦ hne (hvalue text hsome)
    simp [hkept, hunset]
  · have hover : Overridden (some value) name ↔ name.toLower = "authorization" :=
      ⟨And.left, fun hname ↦ ⟨hname, value, rfl, hne⟩⟩
    rw [hheaders, hover]
    simp only [List.mem_append, List.mem_filter, decide_eq_true_eq, List.mem_singleton,
      Prod.mk.injEq, Option.some.injEq]
    refine or_congr_right ⟨?_, ?_⟩
    · rintro ⟨rfl, rfl⟩
      exact ⟨rfl, hne, rfl⟩
    · rintro ⟨rfl, _, rfl⟩
      exact ⟨rfl, rfl⟩

section Names

variable {κ : Type} {key : Text → κ} (hkey : ∀ m n, key m = key n → m.toLower = n.toLower)

include hkey

/-- Headers that are apart by some key of their names stay so with the defaults, if names of one
key are the same but for letter case. -/
theorem nodup_withDefaults {given : Fields Text} (h : (given.names.map key).Nodup) :
    ((given ++ defaultHeaders (given.names.map Text.toLower)).names.map key).Nodup := by
  rw [Fields.names_append, List.map_append, List.nodup_append]
  refine ⟨h, ?_, ?_⟩
  · have hdefaults : ([Text.ofString "Content-Type", Text.ofString "Accept"].map key).Nodup := by
      have hne : key (Text.ofString "Content-Type") ≠ key (Text.ofString "Accept") := fun heq ↦
        absurd (hkey _ _ heq) (by decide +kernel)
      simp [hne]
    exact hdefaults.sublist ((List.filter_sublist.map Prod.fst).map key)
  · rintro _ hgiven _ hdefault rfl
    obtain ⟨m, hm, hkeyed⟩ := List.mem_map.mp hgiven
    obtain ⟨n, hn, hsame⟩ := List.mem_map.mp hdefault
    obtain ⟨d, hd, rfl⟩ := List.mem_map.mp hn
    refine of_decide_eq_true (List.mem_filter.mp hd).2 ?_
    rw [← hkey m d.1 (hkeyed.trans hsame.symm)]
    exact List.mem_map_of_mem hm

/-- They stay so with a configured authorization. -/
theorem nodup_authorize {headers : Fields Text} (h : (headers.names.map key).Nodup)
    (authorization : Option Text) :
    ((authorize authorization headers).names.map key).Nodup := by
  rcases authorize_cases authorization headers with ⟨_, hheaders⟩ | ⟨value, rfl, _, hheaders⟩
  · rwa [hheaders]
  · rw [hheaders, Fields.names_append, List.map_append, List.nodup_append]
    refine ⟨h.sublist ((List.filter_sublist.map Prod.fst).map key), List.nodup_singleton _, ?_⟩
    rintro _ hother _ hown rfl
    obtain ⟨m, hm, hkeyed⟩ := List.mem_map.mp hother
    obtain ⟨d, hd, rfl⟩ := List.mem_map.mp hm
    refine of_decide_eq_true (List.mem_filter.mp hd).2 ?_
    rw [hkey d.1 _ (hkeyed.trans (List.mem_singleton.mp hown))]
    exact toLower_authorization

private theorem nodup_headersOf (h : ((Fields.ofList texts).names.map key).Nodup)
    (authorization : Option Text) :
    ((headersOf texts authorization).names.map key).Nodup := by
  rw [headersOf_eq]
  exact nodup_authorize hkey (nodup_withDefaults hkey h) authorization

end Names

section Texts

variable {ps : List Parameter} (h : queryPairs args ps = .ok texts)

include h

/-- The texts that are left are those of the given parameters. -/
theorem mem_ofList_queryPairs {name text : Text} : (name, text) ∈ Fields.ofList texts ↔
    ∃ p ∈ ps, p.name = name ∧ ∃ v, args.given? p.name = some v ∧ formatted v = .ok text := by
  constructor
  · intro hmem
    have hset := Fields.mem_of_mem_ofList hmem
    obtain ⟨p, hp, rfl⟩ := List.mem_map.mp
      ((names_queryPairs_sublist h).subset (List.mem_map_of_mem hset))
    exact ⟨p, hp, rfl, exists_of_mem_queryPairs h hset⟩
  · rintro ⟨p, hp, rfl, v, hgiven, hformat⟩
    have hset := (mem_queryPairs_iff h hp text).mpr ⟨v, hgiven, hformat⟩
    -- a name has one text, whichever of its settings is the last one
    obtain ⟨⟨_, other⟩, hf, rfl⟩ := List.mem_map.mp
      (Fields.mem_names_ofList.mpr (List.mem_map_of_mem hset))
    obtain ⟨w, hw, hformat'⟩ := exists_of_mem_queryPairs h (Fields.mem_of_mem_ofList hf)
    rw [hgiven, Option.some.injEq] at hw
    rw [← hw, hformat, Except.ok.injEq] at hformat'
    rw [hformat']
    exact hf

/-- A name is present if a given parameter has it. -/
theorem mem_names_ofList_queryPairs {name : Text} : name ∈ (Fields.ofList texts).names ↔
    ∃ p ∈ ps, p.name = name ∧ args.given? p.name ≠ none := by
  constructor
  · intro hmem
    obtain ⟨f, hf, rfl⟩ := List.mem_map.mp hmem
    obtain ⟨p, hp, hname, v, hgiven, _⟩ := (mem_ofList_queryPairs h).mp hf
    exact ⟨p, hp, hname, by simp [hgiven]⟩
  · rintro ⟨p, hp, rfl, hgiven⟩
    obtain ⟨v, hv⟩ := Option.ne_none_iff_exists'.mp hgiven
    obtain ⟨text, _, hmem⟩ := mem_queryPairs h hp hv
    exact Fields.mem_names_ofList.mpr (List.mem_map_of_mem hmem)

end Texts

/-- A name in lower case is present if a given header parameter names it. -/
theorem mem_lowerNames_iff (h : queryPairs args (tool.parametersIn [Location.header]) = .ok texts)
    {name : Text} : name ∈ (Fields.ofList texts).names.map Text.toLower ↔
      NamesHeader tool args name := by
  simp only [List.mem_map, mem_names_ofList_queryPairs h, NamesHeader]
  constructor
  · rintro ⟨_, ⟨p, hp, rfl, hgiven⟩, hname⟩
    exact ⟨p, hp, hgiven, hname⟩
  · rintro ⟨p, hp, hgiven, hname⟩
    exact ⟨p.name, ⟨p, hp, rfl, hgiven⟩, hname⟩

/-- The headers made of the texts of header parameters keep to the policy. -/
theorem followsPolicy_headersOf
    (h : queryPairs args (tool.parametersIn [Location.header]) = .ok texts) :
    FollowsPolicy tool args authorization (headersOf texts authorization) where
  sent name value := by
    rw [headersOf_eq, mem_authorize, List.mem_append, mem_ofList_queryPairs h, mem_defaultHeaders,
      mem_lowerNames_iff h, mem_lowerNames_iff h]
    constructor
    · rintro (⟨⟨p, hp, rfl, v, hgiven, hformat⟩ |
        ⟨rfl, ⟨rfl, hunnamed⟩ | ⟨rfl, hunnamed⟩⟩, hkept⟩ | ⟨hconfigured, hne, rfl⟩)
      · exact .argument hp hgiven hformat hkept
      · exact .contentType hunnamed
      · exact .accept hunnamed
      · exact .authorization hconfigured hne
    · rintro (⟨hp, hgiven, hformat, hkept⟩ | hunnamed | hunnamed | ⟨hconfigured, hne⟩)
      · exact .inl ⟨.inl ⟨_, hp, rfl, _, hgiven, hformat⟩, hkept⟩
      · exact .inl ⟨.inr ⟨rfl, .inl ⟨rfl, hunnamed⟩⟩,
          not_overridden_of_toLower toLower_contentType (by decide)⟩
      · exact .inl ⟨.inr ⟨rfl, .inr ⟨rfl, hunnamed⟩⟩,
          not_overridden_of_toLower toLower_accept (by decide)⟩
      · exact .inr ⟨hconfigured, hne, rfl⟩
  distinct := by
    have hgiven : ((Fields.ofList texts).names.map id).Nodup := by
      rw [List.map_id]
      exact Fields.distinct_ofList texts
    rw [Fields.Distinct, ← List.map_id (Fields.names _)]
    exact nodup_headersOf (fun _ _ ↦ congrArg Text.toLower) hgiven authorization
  authorized value hconfigured hne := by
    rw [headersOf_eq, hconfigured, authorize_eq hne, List.filter_append, List.filter_filter]
    simp [toLower_authorization]
  apart hparameters := by
    have hnames : ((Fields.names texts).map Text.toLower).Nodup := by
      refine hparameters.sublist ?_
      have hsub := (names_queryPairs_sublist h).map Text.toLower
      rwa [List.map_map] at hsub
    have hdistinct : Fields.Distinct texts := hnames.of_map Text.toLower
    refine nodup_headersOf (fun _ _ ↦ id) ?_ authorization
    rwa [Fields.ofList_eq_self hdistinct]

/-- A call has headers exactly if the given header parameters have texts, and they keep to the
policy. -/
theorem headers_sent_iff (tool : Tool) (args : Arguments) (authorization : Option Text) :
    (∃ headers, buildHeaders tool args authorization = .ok headers ∧
      FollowsPolicy tool args authorization headers) ↔
      AllFormatted args (tool.parametersIn [Location.header]) := by
  rw [← exists_queryPairs_iff]
  constructor
  · rintro ⟨headers, hheaders, _⟩
    rw [buildHeaders_eq] at hheaders
    obtain ⟨texts, htexts, _⟩ := Outcome.map_ok_iff.mp hheaders
    exact ⟨texts, htexts⟩
  · rintro ⟨texts, htexts⟩
    refine ⟨headersOf texts authorization, ?_, followsPolicy_headersOf htexts⟩
    rw [buildHeaders_eq, htexts]
    rfl

end Request

end ApiTools
