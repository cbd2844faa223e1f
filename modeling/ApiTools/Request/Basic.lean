import ApiTools.Request.Argument
import ApiTools.Request.Query
import ApiTools.Text.Case
import ApiTools.Tool.Basic

/-!
# Requests

The request that a call of a tool makes. It is a function of the tool, the arguments, the base
URL and the authorization alone, so a live server and a generated one that share them build the
same request.
-/

namespace ApiTools

/-- A request, ready to be sent. -/
structure Request where
  url : Text
  method : Text
  headers : Fields Text
  body : Option Bytes
deriving DecidableEq

/-- Why a call makes no request. -/
inductive RequestError where
  /-- A text holds half of a surrogate pair, which cannot be sent. -/
  | unencodable
  /-- An argument outside of the body has no text, or one of a call that is not sent. -/
  | unformattable
  /-- The body has no JSON text. -/
  | body (reason : Value.Unwritable)
deriving DecidableEq

/-- The report of a call that makes no request. -/
def RequestError.message : RequestError → Text
  | .unencodable => "surrogates not allowed"
  | .unformattable => Value.Unwritable.bytes.message
  | .body reason => "failed to marshal request body: " ++ reason.message

namespace Request

/-- The text of an argument outside of the body. -/
def formatted (v : Argument) : Except RequestError Text :=
  match v.format with
  | .ok t => .ok t
  | .error _ => .error .unformattable

/-- A name in braces. -/
def placeholder (name : Text) : Text := "\x7b" ++ name ++ "\x7d"

/-- The path with the placeholders of the given path parameters replaced one after the other. -/
def fillPath (args : Arguments) : List Parameter → Text → Except RequestError Text
  | [], path => .ok path
  | p :: rest, path =>
    match args.given? p.name with
    | none => fillPath args rest path
    | some v => do fillPath args rest (path.replace (placeholder p.name) (← formatted v))

/-- A base URL and a path with one slash between them; further slashes are kept. -/
def joinUrl (base path : Text) : Text :=
  let slash : CodePoint := '/'
  if base.getLast? = some slash ∧ path.head? = some slash then base ++ path.drop 1
  else if base.getLast? ≠ some slash ∧ path.head? ≠ some slash then base ++ "/" ++ path
  else base ++ path

/-- The names and texts of the given query parameters. -/
def queryPairs (args : Arguments) : List Parameter → Except RequestError (List (Text × Text))
  | [] => .ok []
  | p :: rest =>
    match args.given? p.name with
    | none => queryPairs args rest
    | some v => do
      let text ← formatted v
      return (p.name, text) :: (← queryPairs args rest)

/-- The URL of a call. A query of the base URL goes before the one of the arguments, behind
the path. -/
def buildUrl (tool : Tool) (args : Arguments) (base : Text) : Except RequestError Text := do
  let path ← fillPath args (tool.parametersIn [Location.path]) tool.path
  let (base, baseQuery) := base.cut '?'
  let pairs ← queryPairs args (tool.parametersIn [Location.query])
  match Query.encode? pairs with
  | none => .error .unencodable
  | some query =>
    let parts := [baseQuery.getD [], query].filter (· ≠ [])
    let url := joinUrl base path
    return if parts = [] then url else url ++ "?" ++ Text.join "&" parts

/-- The type of bodies sent and of answers wanted. -/
def jsonContent : Text := "application/json"

/-- The headers of the given header parameters, later values of a name replacing earlier ones. -/
def headerFields (args : Arguments) :
    List Parameter → Fields Text → Except RequestError (Fields Text)
  | [], headers => .ok headers
  | p :: rest, headers =>
    match args.given? p.name with
    | none => headerFields args rest headers
    | some v => do headerFields args rest (headers.set p.name (← formatted v))

/-- A header set unless its name occurs in some letter case. -/
def withDefault (present : List Text) (name value : Text) (headers : Fields Text) : Fields Text :=
  if name.toLower ∈ present then headers else headers.set name value

/-- The headers with a configured authorization in the place of any other. -/
def authorize (authorization : Option Text) (headers : Fields Text) : Fields Text :=
  match authorization with
  | none => headers
  | some [] => headers
  | some value =>
    let others : Fields Text := headers.filter fun h ↦ h.1.toLower ≠ ("authorization" : Text)
    others.set "Authorization" value

/-- The headers of a call. -/
def buildHeaders (tool : Tool) (args : Arguments) (authorization : Option Text) :
    Except RequestError (Fields Text) := do
  let given ← headerFields args (tool.parametersIn [Location.header]) []
  let present := given.names.map Text.toLower
  let headers := withDefault present "Content-Type" jsonContent given
  return authorize authorization (withDefault present "Accept" jsonContent headers)

/-- A value as the canonical bytes of a body. -/
def encodeBody (v : Argument) : Except RequestError Bytes :=
  match v.canonicalText with
  | .ok t => .ok (t.flatMap Encoding.utf8Bytes)
  | .error reason => .error (.body reason)

/-- The arguments that no path or query parameter claims and that are not null. -/
def unclaimed (tool : Tool) (args : Arguments) : Arguments :=
  let claimed := (tool.parametersIn [Location.path, Location.query]).map (·.name)
  args.filter fun (name, v) ↦ decide (name ∉ claimed) && match v with
    | .null => false
    | _ => true

/-- The body of a call: the argument of that name if given, a text or bytes going out as they
are; else an object of the unclaimed arguments, if there are any. -/
def buildBody (tool : Tool) (args : Arguments) : Except RequestError (Option Bytes) :=
  if tool.hasBody then
    match args.given? "body" with
    | some (.string t) =>
      match Encoding.encodeUtf8? t with
      | some b => .ok (some b)
      | none => .error .unencodable
    | some (.other b) => .ok (some b)
    | some v => some <$> encodeBody v
    | none =>
      match unclaimed tool args with
      | [] => .ok none
      | fields => some <$> encodeBody (.object fields)
  else .ok none

/-- The request of a call. -/
def plan (tool : Tool) (args : Arguments) (base : Text) (authorization : Option Text) :
    Except RequestError Request := do
  return {
    url := ← buildUrl tool args base
    method := tool.method
    headers := ← buildHeaders tool args authorization
    body := ← buildBody tool args }

end Request

end ApiTools
