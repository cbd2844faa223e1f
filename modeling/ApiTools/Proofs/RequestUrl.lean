import ApiTools.Proofs.ArgumentPlaces
import ApiTools.Proofs.QueryRoundTrip

/-!
# URLs of requests

The only question mark of a URL is the one before its query, if the filled path has none. What
stands before it are the address and the path with the slashes at their seam made one; what stands
behind it are the query of the base URL and that of the call, which is read back to the names and
texts of the given query parameters (`Request.query_read_back`).
-/

namespace ApiTools

namespace Request

section Seam

variable {address path t : Text}

/-- A text that ends in less than two slashes, without the one that it may end in. -/
theorem exists_before (h : ¬Text.ofString "//" <:+ t) :
    ∃ before : Text, before.getLast? ≠ some (CodePoint.ofChar '/') ∧
      (t = before ∨ t = before ++ "/") := by
  by_cases hlast : t.getLast? = some (CodePoint.ofChar '/')
  · obtain ⟨before, rfl⟩ := List.getLast?_eq_some_iff.mp hlast
    refine ⟨before, fun hmore ↦ h ?_, .inr rfl⟩
    obtain ⟨rest, rfl⟩ := List.getLast?_eq_some_iff.mp hmore
    exact ⟨rest, by rw [List.append_assoc]; rfl⟩
  · exact ⟨t, hlast, .inl rfl⟩

/-- A text that starts with less than two slashes, without the one that it may start with. -/
theorem exists_after (h : ¬Text.ofString "//" <+: t) :
    ∃ after : Text, after.head? ≠ some (CodePoint.ofChar '/') ∧
      (t = after ∨ t = "/" ++ after) := by
  by_cases hfirst : t.head? = some (CodePoint.ofChar '/')
  · obtain ⟨after, rfl⟩ := List.head?_eq_some_iff.mp hfirst
    refine ⟨after, fun hmore ↦ h ?_, .inr rfl⟩
    obtain ⟨rest, rfl⟩ := List.head?_eq_some_iff.mp hmore
    exact ⟨rest, rfl⟩
  · exact ⟨t, hfirst, .inl rfl⟩

/-- An address and a path with one slash between them: each without the slash that it may have
there. -/
structure IsSeam (address path before after joined : Text) : Prop where
  ending : before.getLast? ≠ some (CodePoint.ofChar '/')
  starting : after.head? ≠ some (CodePoint.ofChar '/')
  ofAddress : address = before ∨ address = before ++ "/"
  ofPath : path = after ∨ path = "/" ++ after
  eq : joined = before ++ "/" ++ after

private theorem exists_isSeam_joinUrl (haddress : ¬Text.ofString "//" <:+ address)
    (hpath : ¬Text.ofString "//" <+: path) :
    ∃ before after, IsSeam address path before after (joinUrl address path) := by
  obtain ⟨before, hbefore, haddress⟩ := exists_before haddress
  obtain ⟨after, hafter, hpath⟩ := exists_after hpath
  refine ⟨before, after, hbefore, hafter, haddress, hpath, ?_⟩
  have hslash : (before ++ Text.ofString "/").getLast? = some (CodePoint.ofChar '/') :=
    List.getLast?_concat
  rcases haddress with rfl | rfl
  · rcases hpath with rfl | rfl
    · simp [joinUrl, hbefore, hafter]
    · simp [joinUrl, hbefore, Text.ofString]
  · rcases hpath with rfl | rfl
    · simp [joinUrl, hslash, hafter]
    · simp [joinUrl, Text.ofString]

/-- Nothing but slashes is added between an address and a path. -/
theorem notMem_joinUrl {c : CodePoint} (hc : c ≠ CodePoint.ofChar '/') (haddress : c ∉ address)
    (hpath : c ∉ path) : c ∉ joinUrl address path := by
  unfold joinUrl
  dsimp only
  split
  · rw [List.mem_append, not_or]
    exact ⟨haddress, fun h ↦ hpath (List.mem_of_mem_drop h)⟩
  split
  · simp [haddress, hpath, hc, Text.ofString]
  · simp [haddress, hpath]

end Seam

section Url

variable {base path query : Text}

/-- The query of a base URL and that of a call, one behind the other, if any of them is there. -/
def joinedQuery : (baseQuery query : Text) → Option Text
  | [], [] => none
  | [], query => some query
  | baseQuery, [] => some baseQuery
  | baseQuery, query => some (baseQuery ++ "&" ++ query)

private theorem joinedQuery_eq_none_iff {baseQuery : Text} :
    joinedQuery baseQuery query = none ↔ baseQuery = [] ∧ query = [] := by
  cases baseQuery <;> cases query <;> simp [joinedQuery]

private theorem joinedQuery_eq (baseQuery query : Text) :
    joinedQuery baseQuery query =
      if [baseQuery, query].filter (· ≠ []) = [] then none
      else some (Text.join "&" ([baseQuery, query].filter (· ≠ []))) := by
  cases baseQuery <;> cases query <;>
    simp [joinedQuery, Text.join, List.intercalate_cons_cons]

/-- A URL has its query behind a question mark, if it has one. -/
theorem urlOf_eq (base path query : Text) :
    urlOf base path query = joinUrl (base.cut '?').1 path ++
      ((joinedQuery ((base.cut '?').2.getD []) query).map (CodePoint.ofChar '?' :: ·)).getD [] := by
  rw [joinedQuery_eq]
  unfold urlOf
  dsimp only
  split
  · rw [Option.map_none, Option.getD_none, List.append_nil]
  · rw [Option.map_some, Option.getD_some, List.append_assoc]
    rfl

/-- A URL of an address and a path with one query behind the other: their join is what stands
before the first question mark, with one slash at its seam unless there are more already, and the
queries are what stands behind it. Without them there is no question mark. -/
structure SplitsInto (url address path baseQuery query : Text) : Prop where
  parts : url.cut '?' = (joinUrl address path, joinedQuery baseQuery query)
  seam : ¬Text.ofString "//" <:+ address → ¬Text.ofString "//" <+: path →
    ∃ before after, IsSeam address path before after (joinUrl address path)
  unmarked : CodePoint.ofChar '?' ∉ url ↔ baseQuery = [] ∧ query = []

private theorem splitsInto_urlOf (hpath : CodePoint.ofChar '?' ∉ path) :
    SplitsInto (urlOf base path query) (base.cut '?').1 path ((base.cut '?').2.getD []) query := by
  have hurl : CodePoint.ofChar '?' ∉ joinUrl (base.cut '?').1 path :=
    notMem_joinUrl (by decide) (Text.notMem_cut _ base) hpath
  have hnone := @joinedQuery_eq_none_iff query ((base.cut '?').2.getD [])
  rw [urlOf_eq]
  cases hjoined : joinedQuery ((base.cut '?').2.getD []) query with
  | none =>
    rw [Option.map_none, Option.getD_none, List.append_nil]
    refine ⟨?_, exists_isSeam_joinUrl, iff_of_true hurl (hnone.mp hjoined)⟩
    rw [hjoined, Text.cut_of_notMem hurl]
  | some joined =>
    rw [Option.map_some, Option.getD_some]
    refine ⟨?_, exists_isSeam_joinUrl, iff_of_false (fun hno ↦ hno (by simp)) fun hempty ↦ ?_⟩
    · rw [hjoined, Text.cut_append_cons hurl]
    · rw [hnone.mpr hempty] at hjoined
      cases hjoined

end Url

section Query

variable {args : Arguments} {ps : List Parameter} {texts : List (Text × Text)}

/-- A parameter is given the argument whose text stands beside the parameter's name. -/
def IsTextOf (args : Arguments) (p : Parameter) (pair : Text × Text) : Prop :=
  pair.1 = p.name ∧ ∃ v, args.given? p.name = some v ∧ formatted v = .ok pair.2

/-- Names and texts are those of the given parameters, in order. -/
theorem forall₂_queryPairs (h : queryPairs args ps = .ok texts) :
    List.Forall₂ (IsTextOf args) (ps.filter fun p ↦ (args.given? p.name).isSome) texts := by
  induction ps generalizing texts with
  | nil =>
    cases h
    exact .nil
  | cons p rest ih =>
    rcases queryPairs_cons_ok h with
      ⟨hgiven, hrest⟩ | ⟨v, text, others, hgiven, hformat, hothers, rfl⟩
    · rw [List.filter_cons_of_neg (by simp [hgiven])]
      exact ih hrest
    · rw [List.filter_cons_of_pos (by simp [hgiven])]
      exact .cons ⟨rfl, v, hgiven, hformat⟩ (ih hothers)

/-- The text of a clean argument is clean. -/
theorem isClean_of_formatted {v : Argument} {text : Text} (h : formatted v = .ok text)
    (hv : ∀ t, v = .string t → t.IsClean) : text.IsClean := by
  rw [formatted] at h
  split at h
  · next t hformat =>
    cases h
    rcases Argument.isAscii_of_format hformat with hstring | hascii
    · exact hv text hstring
    · exact hascii.isClean
  · cases h

/-- Clean names and strings make a query. -/
theorem exists_encode?_queryPairs (h : queryPairs args ps = .ok texts)
    (hclean : ∀ p ∈ ps, p.name.IsClean ∧ ∀ t, args.given? p.name = some (.string t) → t.IsClean) :
    ∃ query, Query.encode? texts = some query := by
  rw [Query.exists_encode?_iff]
  intro pair hpair
  obtain ⟨p, hp, hname, v, hgiven, hformat⟩ := exists_partner (forall₂_queryPairs h) hpair
  obtain ⟨hp, -⟩ := List.mem_filter.mp hp
  obtain ⟨hpname, hstring⟩ := hclean p hp
  refine ⟨hname ▸ hpname, isClean_of_formatted hformat fun t ht ↦ hstring t ?_⟩
  rw [hgiven, ht]

end Query

/-- With clean names and strings for its query, a call has a URL exactly if the given path and query
parameters have texts. Then the query is read back to the names and texts of the given query
parameters, in order; and if the filled path has no question mark, the URL splits into the address
and that path, and the query of the base URL and that of the call. -/
theorem query_read_back (tool : Tool) (args : Arguments) (base : Text)
    (hclean : ∀ p ∈ tool.parametersIn [Location.query],
      p.name.IsClean ∧ ∀ t, args.given? p.name = some (.string t) → t.IsClean) :
    ((∃ url, buildUrl tool args base = .ok url) ↔
      AllFormatted args (tool.parametersIn [Location.path]) ∧
        AllFormatted args (tool.parametersIn [Location.query])) ∧
    ∀ url, buildUrl tool args base = .ok url → ∃ path pairs query,
      fillPath args (tool.parametersIn [Location.path]) tool.path = .ok path ∧
      List.Forall₂ (IsTextOf args)
        ((tool.parametersIn [Location.query]).filter fun p ↦ (args.given? p.name).isSome) pairs ∧
      Query.encode? pairs = some query ∧ Query.decode? query = some pairs ∧
      (CodePoint.ofChar '?' ∉ path →
        SplitsInto url (base.cut '?').1 path ((base.cut '?').2.getD []) query) := by
  constructor
  · rw [← exists_queryPairs_iff, ← exists_queryPairs_iff]
    constructor
    · rintro ⟨url, hurl⟩
      obtain ⟨inPath, inQuery, _, hpath, hquery, -⟩ := buildUrl_ok_iff.mp hurl
      exact ⟨⟨inPath, hpath⟩, inQuery, hquery⟩
    · rintro ⟨⟨inPath, hpath⟩, inQuery, hquery⟩
      obtain ⟨query, hencode⟩ := exists_encode?_queryPairs hquery hclean
      exact ⟨_, buildUrl_ok_iff.mpr ⟨inPath, inQuery, query, hpath, hquery, hencode, rfl⟩⟩
  · intro url hurl
    obtain ⟨inPath, inQuery, query, hpath, hquery, hencode, rfl⟩ := buildUrl_ok_iff.mp hurl
    refine ⟨substituted inPath tool.path, inQuery, query, ?_, forall₂_queryPairs hquery, hencode,
      Query.decode?_of_encode? hencode, splitsInto_urlOf⟩
    rw [fillPath_eq, hpath]
    rfl

/-- A tool with two parameters in its query. -/
def search : Tool where
  id := "getSearch"
  description := "Search"
  path := "/search"
  method := "GET"
  parameters := [named "q&a" Location.query true, named "page" Location.query false]

/-- The signs of queries are read back from names and texts, behind the query of the base URL. -/
theorem query_read_back_search :
    (∀ p ∈ search.parametersIn [Location.query], p.name.IsClean ∧
      ∀ t, Arguments.given? [("q&a", .string "1+1=2?"), ("page", .int 3)] p.name =
        some (.string t) → t.IsClean) ∧
    ∃ path pairs query,
      fillPath [("q&a", .string "1+1=2?"), ("page", .int 3)]
        (search.parametersIn [Location.path]) search.path = .ok path ∧
      Query.decode? query = some pairs ∧
      SplitsInto "https://h/v1/search?key=k&q%26a=1%2B1%3D2%3F&page=3" "https://h/v1/" path
        "key=k" query := by
  have hclean : ∀ p ∈ search.parametersIn [Location.query], p.name.IsClean ∧
      ∀ t, Arguments.given? [("q&a", .string "1+1=2?"), ("page", .int 3)] p.name =
        some (.string t) → t.IsClean := by
    have hin : search.parametersIn [Location.query] = search.parameters := by decide +kernel
    rw [hin]
    intro p hp
    rcases List.mem_pair.mp hp with rfl | rfl
    · refine ⟨by decide, fun t ht ↦ ?_⟩
      cases ht
      decide
    · refine ⟨by decide, fun t ht ↦ ?_⟩
      cases ht
  have hurl : buildUrl search [("q&a", .string "1+1=2?"), ("page", .int 3)]
      "https://h/v1/?key=k" = .ok "https://h/v1/search?key=k&q%26a=1%2B1%3D2%3F&page=3" := by
    rfl
  obtain ⟨path, pairs, query, hpath, -, -, hdecode, hsplits⟩ :=
    (query_read_back search _ _ hclean).2 _ hurl
  refine ⟨hclean, path, pairs, query, hpath, hdecode, hsplits ?_⟩
  cases hpath
  decide

end Request

end ApiTools
