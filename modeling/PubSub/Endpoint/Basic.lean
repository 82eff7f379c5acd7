import PubSub.Endpoint.PathTemplate
import PubSub.Registry.Manifest
import PubSub.Text.Fault
import PubSub.Text.Latin1
/-!
# The manifest endpoint

The manifest is served at a path, rendered anew for each request. The media type is taken as it comes and looked at
when a response is made.
-/
namespace PubSub

/-- Where and as what the manifest is served. -/
structure Endpoint where
  path : Text
  mediaType : Value

inductive EndpointError
  | notText (kind : Text)
  | octets
  | notAbsolute (path : Text)
  | noMediaType
  | badTemplate (error : TemplateError)
  /-- There is nothing to serve with. -/
  | unavailable
  deriving DecidableEq

inductive ServeError
  | notRendered (error : RenderError)
  | notText (kind : Text)
  | octets
  /-- A media type that a header does not carry. -/
  | notEncodable (fault : EncodeFault)
  deriving DecidableEq

/-- The wording for a value of a kind that has no beginning to look at. -/
def noBeginning (kind : Text) : Text := lit "'" ++ kind ++ lit "' object has no attribute 'startswith'"

def octetsNotText : Text := lit "startswith first arg must be bytes or a tuple of bytes, not str"

structure Response where
  status : Nat
  contentType : Text
  body : Bytes
  deriving DecidableEq

namespace Endpoint

def defaultPath : Text := lit "/dapr/subscribe"

def defaultMediaType : Text := lit "application/json"

def methods : List Text := [lit "GET"]

def tags : List Text := [lit "subscriptions"]

/-- An absolute path. -/
def checkPath : Value → Except EndpointError Text
  | .text t => if t.head? = some 0x2F then .ok t else .error (.notAbsolute t)
  | .bytes _ => .error .octets
  | v => .error (.notText v.kind)

/-- An endpoint at an absolute path, with some media type. -/
def ofValues (path mediaType : Value) : Except EndpointError Endpoint := do
  let path ← checkPath path
  if mediaType.IsGiven then return ⟨path, mediaType⟩ else throw .noMediaType

/-- The endpoint, if it can be set up: its path is a template. -/
def mount (e : Endpoint) (available : Bool) : Except EndpointError Endpoint :=
  if available then
    match templateFault? e.path with
    | some fault => .error (.badTemplate fault)
    | none => .ok e
  else .error .unavailable

/-- The content type for a media type: one of text that names no character set gets UTF-8. -/
def contentTypeOf (mediaType : Text) : Text :=
  if Text.after? (lit "text/") mediaType ≠ none
      ∧ ¬ Text.Mentions (lit "charset=") (mediaType.map CodePoint.toLowerAscii) then
    mediaType ++ lit "; charset=utf-8"
  else mediaType

def contentType (e : Endpoint) : Except ServeError Text :=
  match e.mediaType with
  | .text t =>
    match Text.encodeLatin1 (contentTypeOf t) with
    | .ok _ => .ok (contentTypeOf t)
    | .error fault => .error (.notEncodable fault)
  | .bytes _ => .error .octets
  | v => .error (.notText v.kind)

/-- The response to a request, with the manifest of the registry as it is. -/
def serve (e : Endpoint) (registry : Registry) : Except ServeError Response := do
  let body ← registry.render.mapError .notRendered
  let contentType ← e.contentType
  return ⟨200, contentType, body⟩

def shown (e : Endpoint) : Text :=
  record (lit "ManifestEndpointConfig")
    [⟨lit "path", e.path.quoted⟩, ⟨lit "media_type", e.mediaType.literal⟩]

end Endpoint

def EndpointError.message : EndpointError → Text
  | .notText kind => noBeginning kind
  | .octets => octetsNotText
  | .notAbsolute path =>
    lit "path must start with '/', got " ++ path.quoted ++ lit ". Use a value like '" ++ Endpoint.defaultPath
      ++ lit "' (default)."
  | .noMediaType => lit "media_type must not be empty."
  | .badTemplate error => error.message
  | .unavailable => lit "FastAPI is not installed. Install it with: pip install topicmanifest-py[fastapi]"

def EndpointError.errorClass : EndpointError → ErrorClass
  | .notText _ => .attribute
  | .octets => .type
  | .notAbsolute _ | .noMediaType => .value
  | .badTemplate error => error.errorClass
  | .unavailable => .endpointUnavailable

def ServeError.message : ServeError → Text
  | .notRendered error => error.message
  | .notText kind => noBeginning kind
  | .octets => octetsNotText
  | .notEncodable fault => fault.message

def ServeError.errorClass : ServeError → ErrorClass
  | .notRendered error => error.errorClass
  | .notText _ => .attribute
  | .octets => .type
  | .notEncodable fault => fault.errorClass

end PubSub
