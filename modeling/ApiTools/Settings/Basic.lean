import ApiTools.Json.Value
import ApiTools.Number.Shortest
import ApiTools.Text.Blank

/-!
# Settings

What can be configured: the service behind the tools, where its document is, how the tools are
offered, how long documents and catalogs are kept, and which tools are offered at all.
-/

namespace ApiTools

/-- The configuration. -/
structure Settings where
  serviceName : Text
  /-- The base URL of the service; empty if it is the document's. -/
  serviceUrl : Text
  serviceAuthorization : Option Text
  clientTimeout : Double
  documentSource : Option Text
  transport : Text
  host : Text
  portNumber : Int
  authToken : Option Text
  maxConcurrency : Int
  toolCacheSeconds : Int
  documentCacheSeconds : Int
  /-- The identifiers of the tools offered, separated by commas; all tools if there are none. -/
  toolAllowlist : Option Text
  strictToolIds : Bool
  outputDirectory : Text
  logLevel : Text
deriving DecidableEq

namespace Settings

/-- The configuration when nothing is configured. -/
def standard : Settings where
  serviceName := "openapi-adapter"
  serviceUrl := []
  serviceAuthorization := none
  clientTimeout := Double.ofInt 30
  documentSource := none
  transport := "streamable-http"
  host := "0.0.0.0"
  portNumber := 8000
  authToken := none
  maxConcurrency := 20
  toolCacheSeconds := 300
  documentCacheSeconds := 3600
  toolAllowlist := none
  strictToolIds := false
  outputDirectory := "generated"
  logLevel := "INFO"

/-- The identifiers in a list separated by commas, without blanks around them. -/
def listed (t : Text) : List Text :=
  ((Text.splitOn ',' t).map (Text.trim CodePoint.isBlank)).filter (· ≠ [])

/-- The identifiers of the tools offered; none if all are. -/
def allowlist (s : Settings) : List Text := (s.toolAllowlist.map listed).getD []

/-- The values of the settings by their names. -/
def toFields (s : Settings) : Fields Json :=
  let optional (t : Option Text) : Json :=
    match t with
    | some t => .string t
    | none => .null
  [("service_name", .string s.serviceName), ("service_url", .string s.serviceUrl),
    ("service_authorization", optional s.serviceAuthorization),
    ("client_timeout_seconds", .float s.clientTimeout),
    ("adapter_openapi_url", optional s.documentSource),
    ("adapter_transport", .string s.transport), ("adapter_host", .string s.host),
    ("adapter_port", .int s.portNumber), ("adapter_auth_token", optional s.authToken),
    ("adapter_max_concurrency", .int s.maxConcurrency),
    ("adapter_tool_cache_seconds", .int s.toolCacheSeconds),
    ("adapter_openapi_cache_seconds", .int s.documentCacheSeconds),
    ("adapter_tool_allowlist", optional s.toolAllowlist),
    ("adapter_strict_tool_ids", .bool s.strictToolIds),
    ("adapter_output_dir", .string s.outputDirectory),
    ("adapter_log_level", .string s.logLevel)]

end Settings

end ApiTools
