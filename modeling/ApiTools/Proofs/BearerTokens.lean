import ApiTools.Proofs.ReplacedTexts
import ApiTools.Proofs.TrimmedTexts
import ApiTools.Server.Http

/-!
# Bearer tokens

A configured token is meant to be shown behind the name of the scheme and white space. What is
compared with it is the authorization without the name of the scheme, wherever that stands, and a
request whose URL has the path of the health page is not asked for it, whatever it is for itself. So
a request is judged as it is meant to be exactly if a token that is shown neither has white space at
its ends nor names the scheme, an authorization that leaves the token names the scheme at its start
and nowhere else, and a URL of that path comes with the token (`judged_rightly_iff`).
-/

namespace ApiTools

namespace Http

open Text (IsAll IsTrimmed trim)

/-- The authorization of a request; empty if it has none. -/
def authorization (r : ClientRequest) : Text := (header? r "authorization").getD []

/-- An authorization shows a token: it is the scheme, white space and the token, with or without
white space around them. -/
def Shows (token shown : Text) : Prop :=
  ∃ before gap after, IsAll CodePoint.isBlank before ∧ IsAll CodePoint.isBlank gap ∧ gap ≠ [] ∧
    IsAll CodePoint.isBlank after ∧ shown = before ++ (scheme ++ (gap ++ (token ++ after)))

/-- A token has no white space at its ends and does not name the scheme. -/
structure IsPlainToken (token : Text) : Prop where
  trimmed : IsTrimmed CodePoint.isBlank token
  unnamed : ¬scheme <:+: token

/-- An authorization starts with the scheme and white space, perhaps behind white space, and does
not name the scheme again. -/
def HasScheme (shown : Text) : Prop :=
  ∃ before gap rest, IsAll CodePoint.isBlank before ∧ IsAll CodePoint.isBlank gap ∧ gap ≠ [] ∧
    ¬scheme <:+: rest ∧ shown = before ++ (scheme ++ (gap ++ rest))

section Shown

variable {token shown before gap rest : Text}

private theorem scheme_ne_nil : scheme ≠ [] := by decide

private theorem isBlank_of_mem_scheme : ∀ c ∈ scheme, c.isBlank = false := by decide

/-- White space and the name of the scheme have nothing in common. -/
theorem notMem_scheme {blank : Text} (h : IsAll CodePoint.isBlank blank) :
    ∀ c ∈ blank, c ∉ scheme := by
  intro c hc hscheme
  have hblank := h c hc
  rw [isBlank_of_mem_scheme c hscheme] at hblank
  cases hblank

private theorem replace_blank_append {blank : Text} (h : IsAll CodePoint.isBlank blank) (t : Text) :
    Text.replace (blank ++ t) scheme [] = blank ++ Text.replace t scheme [] :=
  Text.replace_append_of_notMem (fun hmem ↦ notMem_scheme h _ hmem List.mem_cons_self) [] t

private theorem replace_append_blank {blank : Text} (h : IsAll CodePoint.isBlank blank) (t : Text) :
    Text.replace (t ++ blank) scheme [] = Text.replace t scheme [] ++ blank :=
  Text.replace_append_of_disjoint scheme_ne_nil (notMem_scheme h) [] t

/-- What is compared is the rest behind the scheme, without the scheme. -/
theorem shownToken_eq (hbefore : IsAll CodePoint.isBlank before)
    (hgap : IsAll CodePoint.isBlank gap) (rest : Text) :
    shownToken (before ++ (scheme ++ (gap ++ rest))) =
      trim CodePoint.isBlank (Text.replace rest scheme []) := by
  have htrim := Text.trim_append (hbefore.append hgap) (List.forall_mem_nil _)
    (Text.replace rest scheme [])
  rw [List.append_nil, List.append_assoc] at htrim
  rw [shownToken, replace_blank_append hbefore, Text.replace_append scheme_ne_nil,
    List.nil_append, replace_blank_append hgap, htrim]

/-- A token is left as it is exactly if it is plain. -/
theorem trim_remove_eq_self_iff :
    trim CodePoint.isBlank (Text.replace token scheme []) = token ↔ IsPlainToken token := by
  constructor
  · intro h
    have hlength := Text.length_trim_le CodePoint.isBlank (Text.replace token scheme [])
    rw [h] at hlength
    have hunnamed : ¬scheme <:+: token := fun hinfix ↦
      Nat.lt_irrefl _ (Nat.lt_of_lt_of_le (Text.length_remove_lt scheme_ne_nil hinfix) hlength)
    rw [Text.replace_eq_self [] hunnamed] at h
    exact ⟨Text.trim_eq_self_iff.mp h, hunnamed⟩
  · intro h
    rw [Text.replace_eq_self [] h.unnamed, Text.trim_eq_self_iff.mpr h.trimmed]

/-- A token that is shown is what is compared exactly if it is plain. -/
theorem shownToken_eq_iff (h : Shows token shown) :
    shownToken shown = token ↔ IsPlainToken token := by
  obtain ⟨before, gap, after, hbefore, hgap, -, hafter, rfl⟩ := h
  have htrim := Text.trim_append (List.forall_mem_nil _) hafter (Text.replace token scheme [])
  rw [List.nil_append] at htrim
  rw [shownToken_eq hbefore hgap, replace_append_blank hafter, htrim, trim_remove_eq_self_iff]

/-- What is compared is shown behind the scheme if the scheme stands there alone. -/
theorem HasScheme.shows (h : HasScheme shown) : Shows (shownToken shown) shown := by
  obtain ⟨before, gap, rest, hbefore, hgap, hne, hunnamed, rfl⟩ := h
  obtain ⟨left, right, hleft, hright, hrest⟩ := Text.exists_trim CodePoint.isBlank rest
  rw [shownToken_eq hbefore hgap, Text.replace_eq_self [] hunnamed]
  refine ⟨before, gap ++ left, right, hbefore, hgap.append hleft, ?_, hright, ?_⟩
  · exact fun hnil ↦ hne (List.append_eq_nil_iff.mp hnil).1
  · rw [List.append_assoc gap, ← hrest]

private theorem Shows.hasScheme (h : Shows token shown) (hplain : IsPlainToken token) :
    HasScheme shown := by
  obtain ⟨before, gap, after, hbefore, hgap, hne, hafter, rfl⟩ := h
  refine ⟨before, gap, token ++ after, hbefore, hgap, hne, ?_, rfl⟩
  rw [← Text.remove_eq_self_iff scheme_ne_nil, replace_append_blank hafter,
    Text.replace_eq_self [] hplain.unnamed]

/-- What shows a token starts with the scheme. -/
theorem Shows.isPrefix (h : Shows token shown) :
    scheme <+: Text.trimLeft CodePoint.isBlank shown := by
  obtain ⟨before, gap, after, hbefore, -, -, -, rfl⟩ := h
  rw [Text.trimLeft_append hbefore, Text.trimLeft_eq_self_iff.mpr rfl]
  exact List.prefix_append _ _

end Shown

section Addresses

/-- A code point that has no meaning in the host of a URL. -/
def IsHostChar (c : CodePoint) : Prop :=
  isDropped c = false ∧ endsHost c = false ∧ c ≠ CodePoint.ofChar '[' ∧ c ≠ CodePoint.ofChar ']'

/-- A code point that has no meaning in the path of a URL. -/
def IsPathChar (c : CodePoint) : Prop :=
  isDropped c = false ∧ c ≠ CodePoint.ofChar '?' ∧ c ≠ CodePoint.ofChar '#'

private theorem contains_eq_false {host : Text} {c : CodePoint} (h : c ∉ host) :
    host.contains c = false := by
  rw [Bool.eq_false_iff, ne_eq, List.contains_iff_mem]
  exact h

private theorem urlPath?_append {host rest : Text} (hhost : ∀ c ∈ host, IsHostChar c)
    (hpath : ∀ c ∈ rest, IsPathChar c) :
    urlPath? (host ++ CodePoint.ofChar '/' :: rest) = some (CodePoint.ofChar '/' :: rest) := by
  have hslash : IsPathChar (CodePoint.ofChar '/') := by unfold IsPathChar; decide
  have hwhole : ∀ c ∈ CodePoint.ofChar '/' :: rest, IsPathChar c :=
    List.forall_mem_cons.mpr ⟨hslash, hpath⟩
  have hkept : (host ++ CodePoint.ofChar '/' :: rest).filter (!isDropped ·) =
      host ++ CodePoint.ofChar '/' :: rest := by
    rw [List.filter_eq_self]
    intro c hc
    rcases List.mem_append.mp hc with hc | hc
    · rw [(hhost c hc).1]
      rfl
    · rw [(hwhole c hc).1]
      rfl
  have hends : ∀ c ∈ host, (!endsHost c) = true := by
    intro c hc
    rw [(hhost c hc).2.1]
    rfl
  have hopening := contains_eq_false fun hmem ↦ (hhost _ hmem).2.2.1 rfl
  have hclosing := contains_eq_false fun hmem ↦ (hhost _ hmem).2.2.2 rfl
  have hbare : barePath (CodePoint.ofChar '/' :: rest) = CodePoint.ofChar '/' :: rest := by
    rw [barePath, List.takeWhile_eq_self_iff]
    intro c hc
    obtain ⟨-, hquery, hfragment⟩ := hwhole c hc
    simp [hquery, hfragment]
  unfold urlPath?
  dsimp only
  rw [hkept, List.takeWhile_append_of_pos hends, List.dropWhile_append_of_pos hends,
    List.takeWhile_cons_of_neg (by decide), List.dropWhile_cons_of_neg (by decide),
    List.append_nil, hopening, hclosing, hbare]
  rfl

/-- The two paths that a request is for are the same unless its host or its path holds a code point
that has a meaning in a URL. -/
theorem Address.urlPath_ofRequest {r : ClientRequest} {rest : Text}
    (hhost : ∀ c ∈ (header? r "host").getD [], IsHostChar c)
    (hslash : (Address.ofRequest r).path = CodePoint.ofChar '/' :: rest)
    (hrest : ∀ c ∈ rest, IsPathChar c) :
    (Address.ofRequest r).urlPath = some (Address.ofRequest r).path := by
  show urlPath? (_ ++ (Address.ofRequest r).path) = _
  rw [hslash, urlPath?_append hhost hrest]

end Addresses

section Answers

variable {s : Settings} {r : ClientRequest} {address : Address} {token : Text}

/-- The statuses of pages and of answers about methods. -/
def ordinary : List Nat := [200, 400, 404, 405]

private theorem status_page (method path : Text) : (page method path).status ∈ ordinary := by
  unfold page
  split
  · split
    · decide
    · split <;> decide
  · split <;> decide

/-- What is behind the authorization neither refuses anybody for want of it nor fails. -/
theorem status_respond (r : ClientRequest) (path : Text) :
    (respond r path).status ∈ ordinary := by
  unfold respond
  split
  · split <;> decide
  · split <;> exact status_page _ _

/-- A request is let through if its authorization shows the token, and refused otherwise. -/
structure JudgedRightly (s : Settings) (r : ClientRequest) (address : Address) (token : Text) :
    Prop where
  passes : Shows token (authorization r) → answer s r address = respond r address.path
  refused : ¬Shows token (authorization r) → (answer s r address).status = 401

/-- A request that is not about methods is let through if the path of its URL is that of the health
page or what is compared is the token, and refused otherwise. Without a URL it fails. -/
theorem answer_cases (htoken : s.authToken = some token) (hne : token ≠ [])
    (hmethod : r.method ≠ ("OPTIONS" : Text)) :
    (address.urlPath = none ∧ (answer s r address).status = 500) ∨
      ∃ path, address.urlPath = some path ∧
        ((path.endsWith healthPath = true ∨ shownToken (authorization r) = token) ∧
            answer s r address = respond r address.path ∨
          ¬(path.endsWith healthPath = true ∨ shownToken (authorization r) = token) ∧
            (answer s r address).status = 401) := by
  cases token with
  | nil => exact absurd rfl hne
  | cons c token =>
    cases hurl : address.urlPath with
    | none =>
      refine .inl ⟨rfl, ?_⟩
      simp only [answer, htoken, isAuthorized?, if_neg hmethod, hurl, Option.map_none, refuse]
    | some path =>
      refine .inr ⟨path, rfl, ?_⟩
      have htold : isAuthorized? (c :: token) r address = some
          (path.endsWith healthPath || shownToken (authorization r) == c :: token) := by
        rw [isAuthorized?, if_neg hmethod, hurl]
        rfl
      have hmeant : (path.endsWith healthPath || shownToken (authorization r) == c :: token) =
          true ↔ path.endsWith healthPath = true ∨ shownToken (authorization r) = c :: token := by
        rw [Bool.or_eq_true, beq_iff_eq]
      simp only [answer, htoken, htold]
      rw [← hmeant]
      cases path.endsWith healthPath || shownToken (authorization r) == c :: token with
      | true => exact .inl ⟨rfl, rfl⟩
      | false => exact .inr ⟨Bool.false_ne_true, rfl⟩

/-- A request that is let through is judged rightly if it shows the token. -/
private theorem judgedRightly_iff_of_passes (h : answer s r address = respond r address.path) :
    JudgedRightly s r address token ↔ Shows token (authorization r) := by
  refine ⟨fun hright ↦ ?_, fun hshows ↦ ⟨fun _ ↦ h, fun hnot ↦ absurd hshows hnot⟩⟩
  by_contra hnot
  have hordinary := status_respond r address.path
  rw [← h, hright.refused hnot] at hordinary
  exact absurd hordinary (by decide)

/-- A request with an answer of its own is judged rightly if it is refused and shows no token. -/
private theorem judgedRightly_iff_of_status (h : (answer s r address).status ∉ ordinary) :
    JudgedRightly s r address token ↔
      (answer s r address).status = 401 ∧ ¬Shows token (authorization r) := by
  constructor
  · intro hright
    have hhidden : ¬Shows token (authorization r) := by
      intro hshows
      rw [hright.passes hshows] at h
      exact h (status_respond r address.path)
    exact ⟨hright.refused hhidden, hhidden⟩
  · rintro ⟨hrefused, hnot⟩
    exact ⟨fun hshows ↦ absurd hshows hnot, fun _ ↦ hrefused⟩

/-- With a token configured, a request that is not about methods is judged as it is meant to be
exactly if it has a URL, a URL with the path of the health page comes with the token, a token that
is shown is plain unless such a URL lets it pass, and an authorization that leaves the token names
the scheme at its start and nowhere else. -/
theorem judged_rightly_iff (htoken : s.authToken = some token) (hne : token ≠ [])
    (hmethod : r.method ≠ ("OPTIONS" : Text)) :
    JudgedRightly s r address token ↔ ∃ path, address.urlPath = some path ∧
      (path.endsWith healthPath = true → Shows token (authorization r)) ∧
      (Shows token (authorization r) →
        path.endsWith healthPath = true ∨ IsPlainToken token) ∧
      (shownToken (authorization r) = token → HasScheme (authorization r)) := by
  rcases @answer_cases s r address token htoken hne hmethod with
    ⟨hurl, hfailed⟩ | ⟨path, hurl, ⟨hlet, hpasses⟩ | ⟨hnot, hrefused⟩⟩
  · rw [judgedRightly_iff_of_status (by rw [hfailed]; decide), hfailed, hurl]
    exact iff_of_false (fun h ↦ absurd h.1 (by decide)) fun ⟨_, h, _⟩ ↦ nomatch h
  · rw [judgedRightly_iff_of_passes hpasses]
    constructor
    · intro hshows
      refine ⟨path, hurl, fun _ ↦ hshows, fun _ ↦ ?_, fun hshown ↦ ?_⟩
      · exact hlet.imp_right (shownToken_eq_iff hshows).mp
      · exact hshows.hasScheme ((shownToken_eq_iff hshows).mp hshown)
    · rintro ⟨other, hother, hhealth, -, hscheme⟩
      rw [hurl] at hother
      cases hother
      rcases hlet with hpage | hshown
      · exact hhealth hpage
      · have hshows := (hscheme hshown).shows
        rwa [hshown] at hshows
  · rw [judgedRightly_iff_of_status (by rw [hrefused]; decide)]
    rw [not_or] at hnot
    constructor
    · rintro ⟨-, hhidden⟩
      exact ⟨path, hurl, fun hpage ↦ absurd hpage hnot.1, fun hshows ↦ absurd hshows hhidden,
        fun hshown ↦ absurd hshown hnot.2⟩
    · rintro ⟨other, hother, -, hplain, -⟩
      rw [hurl] at hother
      cases hother
      refine ⟨hrefused, fun hshows ↦ ?_⟩
      rcases hplain hshows with hpage | hplain
      · exact absurd hpage hnot.1
      · exact absurd ((shownToken_eq_iff hshows).mpr hplain) hnot.2

/-- A server on the web with a token. -/
private def guarded (token : Text) : Settings := { Settings.standard with authToken := some token }

/-- A request that shows something. -/
private def asking (shown : Text) : ClientRequest := ⟨"GET", "/x", [("Authorization", shown)]⟩

/-- A token behind its scheme is let through, with other white space around it. -/
theorem judged_rightly_iff_plain :
    (guarded "s3cret").authToken = some (Text.ofString "s3cret") ∧
    (Text.ofString "s3cret") ≠ [] ∧ (asking " Bearer\ts3cret ").method ≠ ("OPTIONS" : Text) ∧
    Shows "s3cret" (authorization (asking " Bearer\ts3cret ")) ∧
    JudgedRightly (guarded "s3cret") (asking " Bearer\ts3cret ")
      (.ofRequest (asking " Bearer\ts3cret ")) "s3cret" := by
  have hplain : IsPlainToken "s3cret" := ⟨by decide, by decide⟩
  have hshows : Shows "s3cret" (authorization (asking " Bearer\ts3cret ")) :=
    ⟨" ", "\t", " ", by decide, by decide, by decide, by decide, by decide⟩
  refine ⟨rfl, by decide, by decide, hshows, ?_⟩
  refine (judged_rightly_iff rfl (by decide) (by decide)).mpr ⟨"/x", by decide, ?_⟩
  exact ⟨fun _ ↦ hshows, fun _ ↦ .inr hplain, fun _ ↦ hshows.hasScheme hplain⟩

/-- The name of the scheme inside a token is passed over when it is shown, and missed when it
belongs to the token. A host that ends in the path of the health page lets a request for another
page pass. -/
theorem scheme_inside_token :
    (answer (guarded "s3cret") (asking "s3Bearercret")).status = 404 ∧
    ¬Shows "s3cret" (authorization (asking "s3Bearercret")) ∧
    (answer (guarded "myBearer") (asking "Bearer myBearer")).status = 401 ∧
    Shows "myBearer" (authorization (asking "Bearer myBearer")) ∧
    (answer (guarded "s3cret") ⟨"GET", "/x", [("Host", "h/health?")]⟩).status = 404 := by
  refine ⟨by decide, fun h ↦ absurd h.isPrefix (by decide), by decide, ?_, by decide⟩
  exact ⟨[], " ", [], by decide, by decide, by decide, by decide, by decide⟩

end Answers

end Http

end ApiTools
