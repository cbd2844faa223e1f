import ApiTools.Proofs.FieldOrder
import ApiTools.Proofs.RequestParts
import ApiTools.Proofs.SlotValues

/-!
# Requests and what was given

The request of a call, or the error in its place, depends on the arguments that are not null alone,
and not on their order. The URL and the headers depend on the arguments of the parameters alone, and
so does the request of a tool without a body (`Request.plan_of_given`).
-/

namespace ApiTools

/-- The arguments that are not null. -/
def Arguments.given (args : Arguments) : Arguments := args.filter fun f ↦ InputModel.isGiven f.2

private theorem Arguments.distinct_given {args : Arguments} (h : args.Distinct) :
    args.given.Distinct :=
  h.sublist (List.filter_sublist.map _)

private theorem Arguments.given?_eq_get?_given {args : Arguments} (h : args.Distinct)
    (name : Text) :
    args.given? name = args.given.get? name := by
  apply Option.ext
  intro v
  rw [given?_eq_filter, Option.filter_eq_some_iff, Fields.get?_eq_some_iff h,
    Fields.get?_eq_some_iff (distinct_given h), given, List.mem_filter]

/-- What is given for a name does not depend on nulls and the order. -/
theorem Arguments.given?_congr {args others : Arguments} (h : args.Distinct) (h' : others.Distinct)
    (hperm : args.given.Perm others.given) (name : Text) :
    args.given? name = others.given? name := by
  rw [given?_eq_get?_given h, given?_eq_get?_given h', Fields.get?_perm hperm (distinct_given h')]

namespace Request

variable {tool : Tool} {args others : Arguments}

section Parameters

private theorem queryPairs_congr {ps : List Parameter}
    (h : ∀ p ∈ ps, args.given? p.name = others.given? p.name) :
    queryPairs args ps = queryPairs others ps := by
  induction ps with
  | nil => rfl
  | cons p rest ih =>
    obtain ⟨hp, hrest⟩ := List.forall_mem_cons.mp h
    rw [queryPairs, queryPairs, hp, ih hrest]

/-- The URL depends on the arguments of the path and query parameters. -/
theorem buildUrl_congr
    (hpath : ∀ p ∈ tool.parametersIn [Location.path], args.given? p.name = others.given? p.name)
    (hquery : ∀ p ∈ tool.parametersIn [Location.query], args.given? p.name = others.given? p.name)
    (base : Text) : buildUrl tool args base = buildUrl tool others base := by
  rw [buildUrl, buildUrl, fillPath_eq, fillPath_eq, queryPairs_congr hpath,
    queryPairs_congr hquery]

/-- The headers depend on the arguments of the header parameters. -/
theorem buildHeaders_congr
    (h : ∀ p ∈ tool.parametersIn [Location.header], args.given? p.name = others.given? p.name)
    (authorization : Option Text) :
    buildHeaders tool args authorization = buildHeaders tool others authorization := by
  rw [buildHeaders_eq, buildHeaders_eq, queryPairs_congr h]

end Parameters

section Bodies

private theorem unclaimed_eq_filter (tool : Tool) (args : Arguments) :
    unclaimed tool args = args.given.filter fun f ↦
      f.1 ∉ (tool.parametersIn [Location.path, Location.query]).map (·.name) := by
  rw [unclaimed, Arguments.given, List.filter_filter]
  apply List.filter_congr
  rintro ⟨name, v⟩ -
  cases v <;> simp [InputModel.isGiven]

/-- The bytes of an object do not depend on the order in which its fields come. -/
theorem encodeBody_object_perm {fields fields' : Arguments} (h : fields.Distinct)
    (hperm : fields.Perm fields') :
    encodeBody (.object fields) = encodeBody (.object fields') := by
  rw [encodeBody, encodeBody, Value.canonicalText, Value.canonicalText,
    Value.sortFields_object_perm h hperm]

/-- The body depends on the arguments that are not null, in any order. -/
theorem buildBody_congr (h : args.Distinct)
    (hbody : args.given? "body" = others.given? "body") (hperm : args.given.Perm others.given) :
    buildBody tool args = buildBody tool others := by
  have hunclaimed : (unclaimed tool args).Perm (unclaimed tool others) := by
    rw [unclaimed_eq_filter, unclaimed_eq_filter]
    exact hperm.filter _
  have hdistinct : (unclaimed tool args).Distinct := h.sublist (List.filter_sublist.map _)
  cases hhas : tool.hasBody with
  | false => rw [buildBody_of_no_body hhas, buildBody_of_no_body hhas]
  | true =>
    cases hgiven : others.given? "body" with
    | some v => rw [buildBody_of_given hhas (hbody.trans hgiven), buildBody_of_given hhas hgiven]
    | none =>
      by_cases hnil : unclaimed tool args = []
      · have hnil' : unclaimed tool others = [] := by
          rw [hnil] at hunclaimed
          exact hunclaimed.nil_eq.symm
        rw [buildBody_eq_none fun _ ↦ ⟨hbody.trans hgiven, hnil⟩,
          buildBody_eq_none fun _ ↦ ⟨hgiven, hnil'⟩]
      · have hnil' : unclaimed tool others ≠ [] := fun h ↦ by
          rw [h] at hunclaimed
          exact hnil hunclaimed.eq_nil
        rw [buildBody_of_missing hhas (hbody.trans hgiven) hnil,
          buildBody_of_missing hhas hgiven hnil', encodeBody_object_perm hdistinct hunclaimed]

end Bodies

private theorem plan_congr {base : Text} {authorization : Option Text}
    (hurl : buildUrl tool args base = buildUrl tool others base)
    (hheaders : buildHeaders tool args authorization = buildHeaders tool others authorization)
    (hbody : buildBody tool args = buildBody tool others) :
    plan tool args base authorization = plan tool others base authorization := by
  rw [plan, plan, hurl, hheaders, hbody]

/-- Calls with the same arguments but for nulls and the order make the same request, or fail with
the same error. Calls whose parameters are given the same have one URL and the same headers, and
make the same request if there is no body. -/
theorem plan_of_given (tool : Tool) (base : Text) (authorization : Option Text)
    (h : args.Distinct) (h' : others.Distinct) :
    (args.given.Perm others.given →
      plan tool args base authorization = plan tool others base authorization) ∧
    ((∀ p ∈ tool.parametersIn [Location.path, Location.query, Location.header],
        args.given? p.name = others.given? p.name) →
      buildUrl tool args base = buildUrl tool others base ∧
      buildHeaders tool args authorization = buildHeaders tool others authorization ∧
      (tool.hasBody = false →
        plan tool args base authorization = plan tool others base authorization)) := by
  constructor
  · intro hperm
    have hname := Arguments.given?_congr h h' hperm
    exact plan_congr (buildUrl_congr (fun p _ ↦ hname p.name) (fun p _ ↦ hname p.name) base)
      (buildHeaders_congr (fun p _ ↦ hname p.name) authorization)
      (buildBody_congr h (hname "body") hperm)
  · intro hparameters
    have hurl : buildUrl tool args base = buildUrl tool others base := by
      apply buildUrl_congr
      · exact fun p hp ↦ hparameters p (tool.parametersIn_subset (by simp) hp)
      · exact fun p hp ↦ hparameters p (tool.parametersIn_subset (by simp) hp)
    have hheaders : buildHeaders tool args authorization =
        buildHeaders tool others authorization := by
      apply buildHeaders_congr
      exact fun p hp ↦ hparameters p (tool.parametersIn_subset (by simp) hp)
    refine ⟨hurl, hheaders, fun hnone ↦ plan_congr hurl hheaders ?_⟩
    rw [buildBody_of_no_body hnone, buildBody_of_no_body hnone]

/-- A null more and another order, for a tool with a body; an undeclared argument more, for one
without. -/
theorem plan_of_given_note :
    let item : Parameter := { name := "id", sanitizedName := "id", location := Location.path }
    let put : Tool := ⟨"putItem", "Puts", "/items/\x7bid\x7d", "PUT", [item], true, false, none⟩
    let get : Tool := ⟨"getItem", "Gets", "/items/\x7bid\x7d", "GET", [item], false, false, none⟩
    plan put [("id", .int 7), ("note", .null), ("c", .bool true)] "https://h" none =
        plan put [("c", .bool true), ("id", .int 7)] "https://h" none ∧
      plan get [("id", .int 7), ("note", .string "n")] "https://h" none =
        plan get [("id", .int 7)] "https://h" none := by
  intro item put get
  constructor
  · exact (plan_of_given put "https://h" none (by decide) (by decide)).1 (by decide)
  · exact ((plan_of_given get "https://h" none (by decide) (by decide)).2 (by decide)).2.2 rfl

end Request

end ApiTools
