import ApiTools.Service
import ApiTools.Tool.Catalog
import ApiTools.Tool.InputModel

/-!
# The server

A server offers the tools of a catalog. Of tools with one identifier it offers the last. The
payload of a call is read by the input model of its tool before the service gets it.
-/

namespace ApiTools

/-- A tool that is offered, with the model of its payloads. -/
structure Offer where
  tool : Tool
  model : InputModel
deriving DecidableEq

/-- A server. -/
structure Server where
  name : Text
  instructions : Text
  service : Service
  offers : List Offer

/-- Why there is no server. -/
inductive ServerError where
  | service (e : ServiceError)
  | model (e : ModelError)
deriving DecidableEq

/-- Why a call has no result. -/
inductive CallError where
  | unknownTool
  | invalid (issues : List Issue)
  | request (e : RequestError)
deriving DecidableEq

namespace Offer

/-- The names under which a payload is read. -/
def properties (o : Offer) : List Text :=
  let all : Fields Unit := Fields.ofList (o.model.slots.map fun s ↦ (s.exposed, ()))
  all.names

/-- The names that a payload has to have. -/
def required (o : Offer) : List Text := (o.model.slots.filter (·.required)).map Slot.exposed

end Offer

namespace Server

/-- What a client is told about the tools. -/
def instructionsFor (title : Text) : Text :=
  "MCP server for the " ++ title ++ " API. "
    ++ "Each tool corresponds to one operation of the API's OpenAPI document."

/-- The tools of a catalog as they are offered. -/
def offersOf (tools : List Tool) : Except ModelError (List Offer) :=
  (Catalog.index tools).values.mapM fun tool ↦ do return ⟨tool, ← InputModel.ofTool tool⟩

/-- The server of a catalog, with the document it was built from, if there is one. -/
def build (s : Settings) (document : Option Document) (tools : List Tool) :
    Except ServerError Server := do
  let service ← (Service.ofSettings s (document.bind Document.serverUrl)).mapError .service
  let offers ← (offersOf tools).mapError .model
  let title := (document.map (·.info.title)).getD s.serviceName
  return ⟨s.serviceName, instructionsFor title, service, offers⟩

/-- What a call gives. -/
structure Answer where
  outcome : Except CallError Service.Result
  sent : Option Sent
  replies : Replies

/-- A call of a tool by its identifier. -/
def call (server : Server) (id : Text) (payload : Argument) (replies : Replies) : Answer :=
  match server.offers.find? fun o ↦ o.tool.id = id with
  | none => ⟨.error .unknownTool, none, replies⟩
  | some offer =>
    match offer.model.arguments payload with
    | .error issues => ⟨.error (.invalid issues), none, replies⟩
    | .ok args =>
      let answer := server.service.call offer.tool args replies
      ⟨answer.outcome.mapError .request, answer.sent, answer.replies⟩

end Server

end ApiTools
