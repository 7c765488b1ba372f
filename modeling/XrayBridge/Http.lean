import XrayBridge.Json

/-! Requests and responses of the HTTP side, as `axum` hands them to the program and takes them
back. -/

namespace XrayBridge

inductive Method where
  | get
  | head
  | post
  | put
  | delete
  | other (name : String)
  deriving DecidableEq

abbrev Headers := List (String × Bytes)

/-- `HeaderMap::get`: the first value of a name. -/
def Headers.get (headers : Headers) (name : String) : Option Bytes :=
  (headers.find? (·.1 = name)).map (·.2)

structure HttpRequest where
  method : Method
  path : String
  query : String
  headers : Headers
  body : Bytes

/-- What a response carries, with its media type: `axum::Json` answers `application/json`, and a
string answers `text/plain`. -/
inductive Body where
  | empty
  | text (value : String)
  | json (value : Json)

structure Response where
  status : Nat
  body : Body

namespace Response

def withoutBody (r : Response) : Response := { r with body := .empty }

/-- `axum` answers a path that no route matches and a method that the route lacks on its own. -/
def notFound : Response := ⟨404, .empty⟩

def methodNotAllowed : Response := ⟨405, .empty⟩

/-- A handler that panics ends the connection without an answer. -/
def connectionClosed : Response := ⟨0, .empty⟩

end Response

inductive AxumRejection where
  | missingJsonContentType
  | bytes
  | jsonSyntax
  | jsonData
  | query
  | invalidUtf8InPathParam
  | wrongNumberOfParameters
  deriving DecidableEq

end XrayBridge
