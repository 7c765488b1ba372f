import XrayBridge.Platform

/-! Errors of the program and their responses. -/

namespace XrayBridge

open Platform

inductive Code where
  | ok
  | cancelled
  | unknown
  | invalidArgument
  | deadlineExceeded
  | notFound
  | alreadyExists
  | permissionDenied
  | resourceExhausted
  | failedPrecondition
  | aborted
  | outOfRange
  | unimplemented
  | internal
  | unavailable
  | dataLoss
  | unauthenticated
  deriving DecidableEq

/-- `tonic::Status`: how a call fails. -/
structure Status where
  code : Code
  message : String

inductive AppError where
  /-- gRPC transport or RPC error from the node. -/
  | grpc (code : Code) (details : String)
  /-- Missing or invalid `Authorization` header. -/
  | unauthenticated (msg : String)
  /-- Missing `X-Node-Domain` or `X-Node-Token` header. -/
  | invalidArgument (msg : String)
  /-- Request body validation failure. -/
  | unprocessableEntity (msg : String)
  /-- Unexpected internal error. -/
  | internal (msg : String)
  deriving DecidableEq

/-- `From<tonic::Status> for AppError`. -/
def AppError.ofStatus (status : Status) : AppError := .grpc status.code status.message

/-! ### Results -/

theorem bind_eq_ok_iff {E A B : Type} {x : Except E A} {f : A → Except E B} {b : B} :
    x >>= f = .ok b ↔ ∃ a, x = .ok a ∧ f a = .ok b := by
  cases x <;> simp [bind, Except.bind]

theorem bind_eq_error_iff {E A B : Type} {x : Except E A} {f : A → Except E B} {e : E} :
    x >>= f = .error e ↔ x = .error e ∨ ∃ a, x = .ok a ∧ f a = .error e := by
  cases x <;> simp [bind, Except.bind]

/-! ### Responses -/

section

variable [Platform]

def grpcCodeToHttp (code : Code) (details : String) : Nat :=
  match code with
  | .notFound => 404
  | .alreadyExists => 409
  | .unimplemented => 501
  | .unavailable => 502
  | .unknown =>
    let lower := toLowercase details
    if contains lower "not found" then 404
    else if contains lower "already exists" then 409
    else 502
  | _ => 500

def codeName : Code → String
  | .ok => "OK"
  | .cancelled => "CANCELLED"
  | .unknown => "UNKNOWN"
  | .invalidArgument => "INVALID_ARGUMENT"
  | .deadlineExceeded => "DEADLINE_EXCEEDED"
  | .notFound => "NOT_FOUND"
  | .alreadyExists => "ALREADY_EXISTS"
  | .permissionDenied => "PERMISSION_DENIED"
  | .resourceExhausted => "RESOURCE_EXHAUSTED"
  | .failedPrecondition => "FAILED_PRECONDITION"
  | .aborted => "ABORTED"
  | .outOfRange => "OUT_OF_RANGE"
  | .unimplemented => "UNIMPLEMENTED"
  | .internal => "INTERNAL"
  | .unavailable => "UNAVAILABLE"
  | .dataLoss => "DATA_LOSS"
  | .unauthenticated => "UNAUTHENTICATED"

def errorBody (code error : String) : Body :=
  .json (.obj [("ok", .bool false), ("code", .str code), ("error", .str error)])

/-- `IntoResponse for AppError`. -/
def AppError.intoResponse : AppError → Response
  | .grpc code details => ⟨grpcCodeToHttp code details, errorBody (codeName code) details⟩
  | .unauthenticated msg => ⟨401, errorBody "UNAUTHENTICATED" msg⟩
  | .invalidArgument msg => ⟨400, errorBody "INVALID_ARGUMENT" msg⟩
  | .unprocessableEntity msg => ⟨422, errorBody "INVALID_ARGUMENT" msg⟩
  | .internal msg => ⟨500, errorBody "INTERNAL_ERROR" msg⟩

theorem grpcCodeToHttp_ge (code : Code) (details : String) :
    400 ≤ grpcCodeToHttp code details := by
  cases code with
  | unknown =>
    simp only [grpcCodeToHttp]
    split
    · decide
    · split <;> decide
  | _ => simp [grpcCodeToHttp]

theorem AppError.status_ge (e : AppError) : 400 ≤ e.intoResponse.status := by
  cases e with
  | grpc code details => exact grpcCodeToHttp_ge code details
  | _ => simp [intoResponse]

/-- The body of an error is the envelope of its code and its text. -/
theorem AppError.body_eq (e : AppError) :
    ∃ code error, e.intoResponse.body = errorBody code error := by
  cases e <;> exact ⟨_, _, rfl⟩

end

end XrayBridge
