import ApiTools.Settings.Basic
import ApiTools.Exchange.Execution

/-!
# The service

Calls of tools are sent to the service that the settings name, or to the one that the document
names if its URL is absolute. Without either a call is answered by a description of itself.
-/

namespace ApiTools

/-- The service behind the tools. -/
structure Service where
  settings : Settings
  executor : Executor
  /-- The URL of the document's server. -/
  documentUrl : Option Text

/-- Why there is no service. -/
inductive ServiceError where
  /-- Fewer than no calls at a time. -/
  | negativeConcurrency
deriving DecidableEq

/-- The report of a service that cannot be. -/
def ServiceError.message : ServiceError → Text
  | .negativeConcurrency => "Semaphore initial value must be >= 0"

namespace Service

/-- The service of some settings. -/
def ofSettings (s : Settings) (documentUrl : Option Text) : Except ServiceError Service :=
  if s.maxConcurrency < 0 then .error .negativeConcurrency
  else .ok ⟨s, ⟨.double s.clientTimeout, true⟩, documentUrl⟩

/-- Is a URL one on the web? -/
def isAbsolute (url : Text) : Bool := url.startsWith "http://" || url.startsWith "https://"

/-- The base URL of requests, if there is one. -/
def baseUrl (s : Service) : Option Text :=
  if s.settings.serviceUrl ≠ [] then some s.settings.serviceUrl
  else s.documentUrl.filter isAbsolute

/-- The result of a call. -/
structure Result where
  text : Text
  isError : Bool
deriving DecidableEq

/-- A result as it is handed on. -/
def Result.toJson (r : Result) : Json :=
  let content : Text × Json := ("content", .array [.object [("type", .string "text"),
    ("text", .string r.text)]])
  .object (content :: if r.isError then [("is_error", .bool true)] else [])

/-- What a call gives. -/
structure Answer where
  outcome : Except RequestError Result
  sent : Option Sent
  replies : Replies

/-- A call described instead of being sent, unless a whole number among its arguments has too many
digits to be shown. -/
def description (tool : Tool) (args : Arguments) : Except RequestError Text :=
  if (Value.object args : Argument).holdsLong then .error .unformattable
  else
    .ok ("Mock response for " ++ tool.operation ++ "\nParams: " ++ Literal.value (.object args))

/-- A call of a tool. A body that has no JSON text, and whatever goes wrong behind the request,
is a result of its own kind; a request that cannot be made for another reason is none. -/
def call (s : Service) (tool : Tool) (args : Arguments) (replies : Replies) : Answer :=
  match s.baseUrl with
  | none => ⟨(description tool args).map fun text ↦ ⟨text, false⟩, none, replies⟩
  | some base =>
    match Request.plan tool args base s.settings.serviceAuthorization with
    | .error (.body reason) => ⟨.ok ⟨(RequestError.body reason).message, true⟩, none, replies⟩
    | .error e => ⟨.error e, none, replies⟩
    | .ok request =>
      let answer := s.executor.execute request (some (.double s.settings.clientTimeout)) replies
      match answer.outcome with
      | .ok text => ⟨.ok ⟨text, false⟩, some answer.sent, answer.replies⟩
      | .error e => ⟨.ok ⟨e.message, true⟩, some answer.sent, answer.replies⟩

/-- A call when no other one is under way. It waits for its turn, which never comes where no calls
are let through at a time. -/
def call? (s : Service) (tool : Tool) (args : Arguments) (replies : Replies) : Option Answer :=
  if 0 < s.settings.maxConcurrency then some (s.call tool args replies) else none

/-- A call of a tool that is asked for. -/
structure Invocation where
  tool : Tool
  args : Arguments

/-- The turns that calls can take before another one gives its turn back. -/
structure Turns where
  free : Int
deriving DecidableEq

/-- One turn less, if there is one to be taken. -/
def Turns.take? (turns : Turns) : Option Turns :=
  if 0 < turns.free then some ⟨turns.free - 1⟩ else none

/-- One turn more. -/
def Turns.giveBack (turns : Turns) : Turns := ⟨turns.free + 1⟩

/-- The turns of a service none of whose calls is under way. -/
def turns (s : Service) : Turns := ⟨s.settings.maxConcurrency⟩

/-- A call in its turn, which it gives back whatever comes of it. Without a turn it waits for good,
since no other call is under way that could give one back. -/
def callInTurn? (s : Service) (c : Invocation) (turns : Turns) (replies : Replies) :
    Option (Answer × Turns) := do
  let left ← turns.take?
  return (s.call c.tool c.args replies, left.giveBack)

/-- Calls one after the other, each with the turns and the replies that the ones before it leave. -/
def calls? (s : Service) : List Invocation → Turns → Replies → Option (List Answer × Turns)
  | [], turns, _ => some ([], turns)
  | c :: rest, turns, replies => do
    let (answer, turns) ← s.callInTurn? c turns replies
    let (answers, turns) ← s.calls? rest turns answer.replies
    return (answer :: answers, turns)

end Service

end ApiTools
