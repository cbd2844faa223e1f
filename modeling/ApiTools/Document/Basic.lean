import ApiTools.Literal.Basic

/-!
# The document model

What tools need to know of a document: its paths with their operations, parameters and request
bodies, where the service is, and what the document calls itself.
-/

namespace ApiTools

namespace Document

/-- A schema as far as parameters and bodies look at it. -/
structure Schema where
  type : Json
  enum : Option (List Json)
  ref : Option Text
deriving DecidableEq

/-- A parameter as a document declares it. -/
structure Parameter where
  name : Text
  location : Text
  required : Bool
  description : Option Text
  schema : Option Schema
deriving DecidableEq

/-- One form of a request body. -/
structure MediaType where
  schema : Option Schema
deriving DecidableEq

/-- A request body; a media type that is no object has no form. -/
structure RequestBody where
  description : Option Text
  required : Bool
  content : Fields (Option MediaType)
deriving DecidableEq

/-- An operation; its parameters include those of its path item that it does not override. -/
structure Operation where
  operationId : Option Text
  summary : Option Text
  description : Option Text
  tags : List Text
  parameters : List Parameter
  requestBody : Option RequestBody
deriving DecidableEq

/-- A path item: the parameters it shares, and its operations by method in upper case. -/
structure PathItem where
  parameters : List Parameter
  operations : Fields Operation
deriving DecidableEq

/-- What a document calls itself. -/
structure Info where
  title : Text
  version : Text
  description : Option Text
deriving DecidableEq

/-- A place where the service is, with the placeholders in its URL. -/
structure Server where
  url : Text
  placeholders : Fields (Fields Json)
deriving DecidableEq

end Document

/-- A document. -/
structure Document where
  version : Text
  info : Document.Info
  servers : List Document.Server
  paths : Fields Document.PathItem
  components : Fields Json
deriving DecidableEq

namespace Document

/-- The number of component schemas. -/
def schemaCount (document : Document) : Nat :=
  match document.components.get? "schemas" with
  | some (.object schemas) => schemas.length
  | _ => 0

/-- The text that a placeholder stands for; nothing when it declares none. -/
def Server.defaultText (declared : Fields Json) : Text :=
  match declared.get? "default" with
  | some v => Literal.shown v.lift
  | none => []

/-- A URL with each placeholder in turn replaced by what it stands for. -/
def Server.filledUrl (server : Server) : Text :=
  server.placeholders.foldl (fun url (name, declared) ↦
    url.replace ("\x7b" ++ name ++ "\x7d") (defaultText declared)) server.url

/-- The URL of the first server, if there is one. -/
def serverUrl (document : Document) : Option Text := document.servers.head?.map Server.filledUrl

end Document

end ApiTools
