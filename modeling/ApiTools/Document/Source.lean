import ApiTools.Files.Path
import ApiTools.Json.Reader
import ApiTools.Exchange.Reply
import ApiTools.Yaml.Content

/-!
# Where documents come from

A document is fetched from the web or read from a file, and given as JSON: what is JSON already,
and what is no YAML mapping either, is left as it is. What loads YAML can be any loader.
-/

namespace ApiTools

/-- The files that documents can be read from, and the replies that the web has for them. -/
structure Sources where
  files : Files
  replies : Replies

/-- Why a document was not fetched. -/
inductive FetchError where
  /-- No reply came. -/
  | failed (message : Text)
  /-- The reply was not a success. -/
  | refused (source : Text) (status : Int)
  /-- There is no file that can be read. -/
  | unreadable
  /-- The path is none that a file can have. -/
  | path (e : PathError)
  /-- The content is YAML, but has no JSON form. -/
  | yaml (fault : Yaml.Fault)
deriving DecidableEq

/-- The report of a document that was not fetched. -/
def FetchError.message : FetchError → Text
  | .failed message => "failed to fetch OpenAPI documentation: " ++ message
  | .refused source status =>
    "received non-OK response for " ++ source ++ ": " ++ Text.ofInt status
  | .unreadable => "failed to read OpenAPI documentation: "
  | .path e => e.message
  | .yaml fault => fault.message

namespace Document

/-- Is a source on the web, and not a file? -/
def isOnWeb (source : Text) : Bool :=
  source.startsWith "http://" || source.startsWith "https://"

/-- The content of a file. -/
def readFile (files : Files) (source : Text) : Except FetchError Bytes :=
  match Files.checkPath source with
  | .error e => .error (.path e)
  | .ok () =>
    match files.read? source with
    | some content => .ok content
    | none => .error .unreadable

/-- The content that a reply brings. -/
def replied (source : Text) : Reply → Except FetchError Bytes
  | .failure message => .error (.failed message)
  | .response status content _ =>
    if status = 200 then .ok content else .error (.refused source status)

/-- Content as JSON, if it is a YAML mapping and not JSON already. -/
def asJson (content : Bytes) (load : Yaml.Loader := Yaml.load) : Except FetchError Bytes :=
  if (Json.decode? content).isSome then .ok content
  else
    match load content with
    | .error .malformed => .ok content
    | .error fault => .error (.yaml fault)
    | .ok data =>
      if data.isMapping then
        match data.toJson with
        | .ok v => .ok ((Json.write .spaced v).flatMap Encoding.utf8Bytes)
        | .error fault => .error (.yaml fault)
      else .ok content

/-- What a source gives, before it is brought into JSON, and the sources behind that. -/
def retrieve (sources : Sources) (source : Text) : Except FetchError Bytes × Sources :=
  if isOnWeb source then
    let (reply, rest) := sources.replies.next
    (replied source reply, { sources with replies := rest })
  else (readFile sources.files source, sources)

/-- The JSON of a document, and the sources behind it. -/
def fetch (sources : Sources) (source : Text) (load : Yaml.Loader := Yaml.load) :
    Except FetchError Bytes × Sources :=
  let (content, rest) := retrieve sources source
  (content.bind (asJson · load), rest)

end Document

end ApiTools
