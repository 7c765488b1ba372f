import XrayBridge.Nodes
import XrayBridge.Lib.Dialogue

/-! Calls of a node: the operations of the program are dialogues whose questions are gRPC requests
and trace events. -/

namespace XrayBridge

open Platform

abbrev Metadata := List (String × Bytes)

/-- `MetadataMap::insert`: the value replaces all values of its name. -/
def Metadata.insert (metadata : Metadata) (name : String) (value : Bytes) : Metadata :=
  (name, value) :: metadata.filter (·.1 ≠ name)

/-- `tonic::Request`, for the call that its message makes. -/
structure TonicRequest (message : Rpc) where
  metadata : Metadata

def TonicRequest.new (message : Rpc) : TonicRequest message := ⟨[]⟩

variable [Platform]

/-- A request on its way to a node. -/
structure GrpcRequest where
  channel : Channel
  metadata : Metadata
  rpc : Rpc

/-- What an operation does besides computing. -/
inductive Effect where
  | trace (event : TraceEvent)
  | rpc (request : GrpcRequest)

/-- What comes back: for a request, the reply of the node or the status of the failure. -/
def Effect.Answer : Effect → Type
  | .trace _ => Unit
  | .rpc request => Except Status request.rpc.Reply

abbrev Grpc := Dialogue Effect Effect.Answer

abbrev Call := ExceptT AppError Grpc

/-- The body of the functions `add_token` of the three modules that call nodes: a token that is no
metadata value leaves the request as it is. -/
def withApiToken {message : Rpc} (request : TonicRequest message) (token : String) :
    TonicRequest message :=
  match metadataTryFrom token with
  | some val => { request with metadata := request.metadata.insert "x-api-token" val }
  | none => request

/-- The call of a method through a channel. -/
def send (channel : Channel) {message : Rpc} (request : TonicRequest message) :
    Grpc (Except Status message.Reply) :=
  Dialogue.question (Effect.rpc { channel, metadata := request.metadata, rpc := message })

/-- `.await.map_err(AppError::from)?` -/
def orError {α : Type} (reply : Grpc (Except Status α)) : Call α :=
  ExceptT.mk (reply >>= fun r => pure (r.mapError AppError.ofStatus))

/-- The trace event with which each operation starts. -/
def debugCall (method : String) (client : XrayClient) : Call Unit :=
  ExceptT.mk
    (Dialogue.question (Effect.trace (.grpcCall method client.name)) >>= fun _ => pure (.ok ()))

/-- The `?` of a result that needs no call. -/
def ofResult {α : Type} (result : Except AppError α) : Call α := ExceptT.mk (pure result)

end XrayBridge
