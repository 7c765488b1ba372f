import XrayBridge.Config
import XrayBridge.Error

/-! Bearer authentication. -/

namespace XrayBridge

open Platform

variable [Platform]

/-- The loop of `constant_time_eq` collects the differing bits of all pairs of bytes. -/
def constantTimeEq (a b : Bytes) : Bool :=
  if a.length ≠ b.length then false
  else (a.zip b).foldl (fun result pair => result ||| (pair.1 ^^^ pair.2)) 0 == 0

/-- Why a request does not reach the body of its handler.  `panic` stands for a panic of an
extractor. -/
inductive Abort where
  | app (error : AppError)
  | axum (rejection : AxumRejection)
  | panic

def missingAuthorization : AppError := .unauthenticated "缺少 Authorization header"

def malformedAuthorization : AppError :=
  .unauthenticated "Authorization header 格式应为: Bearer <token>"

/-- The token of an `Authorization` header, after the prefix in this or another case. -/
def bearerToken (authStr : String) : Except Abort String :=
  match stripStart "Bearer " authStr with
  | some token => .ok token
  | none =>
    if startsWith (toLowercase authStr) "bearer " then
      match sliceFrom 7 authStr with
      | some token => .ok token
      | none => .error .panic
    else .error (.app malformedAuthorization)

/-- `BearerAuth::from_request_parts`. -/
def bearerAuth (settings : Settings) (headers : Headers) : Except Abort Unit := do
  let some authStr := (headers.get "authorization").bind toStr
    | .error (.app missingAuthorization)
  let token ← bearerToken authStr
  if token.isEmpty then .error (.app malformedAuthorization)
  else if !constantTimeEq (utf8 token) (utf8 settings.bridgeToken) then
    .error (.app (.unauthenticated "Token 无效"))
  else .ok ()

/-- The response to a request that does not reach the body of its handler. -/
def Abort.intoResponse (request : HttpRequest) : Abort → Response
  | .app error => error.intoResponse
  | .axum rejection => rejectionResponse request rejection
  | .panic => .connectionClosed

end XrayBridge
