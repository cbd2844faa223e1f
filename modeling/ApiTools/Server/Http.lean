import ApiTools.Request.QueryReader
import ApiTools.Settings.Basic
import ApiTools.Text.Blank
import ApiTools.Text.Case

/-!
# The server on the web

Beside the traffic of its protocol a server on the web has a page that says that it is well. A
configured token has to be shown for everything but that page and questions about methods. Any
origin may ask.

Whether a request is for that page is told in two ways. It finds its page by the path of its target,
but may pass by the path of a URL that is put together from the host that it names and that path
(`Address`). The two are the same unless one of them holds what a URL gives a meaning to.
-/

namespace ApiTools

namespace Http

/-- A request of a client. -/
structure ClientRequest where
  method : Text
  path : Text
  headers : Fields Text

/-- An answer to a client. -/
structure ClientAnswer where
  status : Nat
  body : Text
deriving DecidableEq

/-- The ways to offer tools on the web. -/
def webTransports : List Text := ["http", "streamable-http", "streamablehttp", "sse"]

/-- Are tools offered on the web? -/
def isOnWeb (s : Settings) : Bool := s.transport.toLower ∈ webTransports

/-- A header, whatever the letter case of its name. -/
def header? (r : ClientRequest) (name : Text) : Option Text :=
  (List.find? (fun (n, _) ↦ Text.toAsciiLower n = name) r.headers).map (·.2)

/-- A path without the query and the fragment. -/
def barePath (path : Text) : Text := path.takeWhile fun (c : CodePoint) ↦ c != '?' && c != '#'

/-- A path without its escapes, with a number of code points still to be passed over. Escaped bytes
beyond ASCII are replaced one by one: no page has such a path. -/
def unescapeFrom : Nat → Text → Text
  | _, [] => []
  | skip + 1, _ :: t => unescapeFrom skip t
  | 0, c :: t =>
    match if c = '%' then Query.escaped? t else none with
    | some b =>
      (if b < 0x80 then CodePoint.ofChar (Char.ofUInt8 b) else '\uFFFD') :: unescapeFrom 2 t
    | none => c :: unescapeFrom 0 t

/-- The code points that are dropped from URLs. -/
def isDropped (c : CodePoint) : Bool := c == '\t' || c == '\n' || c == '\r'

/-- The code points that end the host of a URL. -/
def endsHost (c : CodePoint) : Bool := c == '/' || c == '?' || c == '#'

/-- The path of a URL behind its scheme. There is none behind a host with half a pair of brackets;
what stands in a pair of them is taken for an address. -/
def urlPath? (url : Text) : Option Text :=
  let url := url.filter (!isDropped ·)
  let host := url.takeWhile (!endsHost ·)
  if host.contains (CodePoint.ofChar '[') == host.contains (CodePoint.ofChar ']') then
    some (barePath (url.dropWhile (!endsHost ·)))
  else none

/-- What a request is for, in the two ways in which that is told. -/
structure Address where
  /-- The path by which the request finds its page. -/
  path : Text
  /-- The path of the URL of the request, if it is one. -/
  urlPath : Option Text
deriving DecidableEq

/-- What a request is for: the path of its target without escapes, and that of the URL of the host
that it names and that path. -/
def Address.ofRequest (r : ClientRequest) : Address :=
  let path := unescapeFrom 0 (barePath r.path)
  ⟨path, urlPath? ((header? r "host").getD [] ++ path)⟩

/-- The page that says that the server is well. -/
def healthPath : Text := "/health"

/-- The word before a token. -/
def scheme : Text := "Bearer"

/-- The token that an authorization shows. -/
def shownToken (authorization : Text) : Text :=
  (authorization.replace scheme []).trim CodePoint.isBlank

/-- May a request pass? That is not told where a URL is asked for and there is none. -/
def isAuthorized? (token : Text) (r : ClientRequest) (address : Address) : Option Bool :=
  if r.method = ("OPTIONS" : Text) then some true
  else
    address.urlPath.map fun path ↦
      path.endsWith healthPath || shownToken ((header? r "authorization").getD []) == token

/-- The methods that another origin may use. -/
def sharedMethods : List Text := ["DELETE", "GET", "HEAD", "OPTIONS", "PATCH", "POST", "PUT"]

/-- The method that another origin asks about, if a request is such a question. -/
def askedMethod? (r : ClientRequest) : Option Text :=
  if r.method = ("OPTIONS" : Text) ∧ (header? r "origin").isSome then
    header? r "access-control-request-method"
  else none

/-- The path without the slashes at its end. -/
def withoutSlashes (path : Text) : Text := path.trimRight fun c ↦ c == '/'

/-- The page that a path leads to, behind authorization. One with slashes behind it leads there
through a second request of the same kind. -/
def page (method path : Text) : ClientAnswer :=
  if path = healthPath then
    if method = ("GET" : Text) then ⟨200, "\x7b\"status\":\"ok\"\x7d"⟩
    else if method = ("HEAD" : Text) then ⟨200, []⟩
    else ⟨405, "Method Not Allowed"⟩
  else if method = ("HEAD" : Text) then ⟨404, []⟩
  else ⟨404, "Not Found"⟩

/-- The answer to a request that may pass. -/
def respond (r : ClientRequest) (path : Text) : ClientAnswer :=
  match askedMethod? r with
  | some method =>
    if method ∈ sharedMethods then ⟨200, "OK"⟩ else ⟨400, "Disallowed CORS method"⟩
  | none =>
    if path.endsWith "/" ∧ withoutSlashes path = healthPath then page r.method healthPath
    else page r.method path

/-- An answer that is none of a page. A request that asks for no content gets none. -/
def refuse (r : ClientRequest) (status : Nat) (body : Text) : ClientAnswer :=
  ⟨status, if r.method = ("HEAD" : Text) then [] else body⟩

/-- The answer to a request. -/
def answer (s : Settings) (r : ClientRequest) (address : Address := .ofRequest r) : ClientAnswer :=
  match s.authToken with
  | some (c :: token) =>
    match isAuthorized? (c :: token) r address with
    | some true => respond r address.path
    | some false => refuse r 401 "\x7b\"error\":\"Unauthorized\"\x7d"
    | none => refuse r 500 "Internal Server Error"
  | _ => respond r address.path

end Http

end ApiTools
