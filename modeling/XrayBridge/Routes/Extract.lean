import XrayBridge.Auth
import XrayBridge.Nodes
import XrayBridge.Grpc
import XrayBridge.Lib.PercentCoding

/-! Handlers: their extractors, the order in which these run, and the response of a request. -/

namespace XrayBridge

open Platform
open PathTemplate (Captures)

variable [Platform]

/-- What extractors read: the request, and what the parameters of its route hold. -/
structure Parts where
  request : HttpRequest
  captures : Captures

/-- An extractor that leaves the shared state alone. -/
abbrev Extractor (α : Type) := Parts → Except Abort α

def noArgument : Extractor Unit := fun _ => .ok ()

/-- What `axum` reads in a captured segment. -/
def percentDecoded (raw : String) : Option String := decodeUtf8 (PercentCoding.decode (utf8 raw))

/-- `Path<String>`.  All parameters of the route are decoded, and there must be exactly one. -/
def path : Extractor String := fun parts =>
  match parts.captures.mapM fun (name, raw) => (percentDecoded raw).map (name, ·) with
  | none => .error (.axum .invalidUtf8InPathParam)
  | some [(_, value)] => .ok value
  | some _ => .error (.axum .wrongNumberOfParameters)

/-- `Query<T>`, for the deserializer of `T`. -/
def query {T : Type} (deserialize : List (String × String) → Option T) : Extractor T := fun parts =>
  match deserialize (formPairs parts.request.query) with
  | some q => .ok q
  | none => .error (.axum .query)

/-- `Json<T>`, for the fields and the deserializer of `T`.  An array that goes on after the fields
is rejected for its syntax, and every other document that is no `T` for its data. -/
def json {T : Type} (names : List String) (deserialize : Json → Option T) : Extractor T :=
  fun parts =>
    match jsonBody parts.request.headers parts.request.body with
    | .error rejection => .error (.axum rejection)
    | .ok document =>
      match deserialize document with
      | none => .error (.axum .jsonData)
      | some body => if document.overfull names then .error (.axum .jsonSyntax) else .ok body

/-- A handler of an operation.  Its arguments are, in this order, the shared state, the client of
`NodeContext`, what `params` reads in the path and the query, `BearerAuth`, and what `body` reads
in the body; `run` is what the handler does with them. -/
structure Handler where
  {Params : Type}
  {Body : Type}
  params : Extractor Params
  body : Extractor Body
  run : XrayClient → Params → Body → Call Response

/-- The extractors run in the order of the arguments, and the first rejection ends the request.
`NodeContext` is the only one with an effect on the cache. -/
def Handler.extract (h : Handler) (settings : Settings) (parts : Parts) (cache : XrayClientCache) :
    Except Abort (Call Response) × XrayClientCache :=
  match nodeContext parts.request.headers cache with
  | (.error e, cache) => (.error (.app e), cache)
  | (.ok client, cache) =>
    (do
      let params ← h.params parts
      bearerAuth settings parts.request.headers
      let body ← h.body parts
      return h.run client params body, cache)

def toResponse (call : Call Response) : Grpc Response := do
  match ← call.run with
  | .ok response => return response
  | .error e => return e.intoResponse

def Handler.serve (h : Handler) (settings : Settings) (parts : Parts) (cache : XrayClientCache) :
    Grpc Response × XrayClientCache :=
  match h.extract settings parts cache with
  | (.ok call, cache) => (toResponse call, cache)
  | (.error abort, cache) => (pure (abort.intoResponse parts.request), cache)

end XrayBridge
