import XrayBridge.Grpc
import XrayBridge.Xray.Account

/-! The operations on the handler service of a node: users, inbounds and outbounds. -/

namespace XrayBridge

open Platform

namespace HandlerService

variable [Platform]

def addToken {message : Rpc} (request : TonicRequest message) (token : String) :
    TonicRequest message :=
  withApiToken request token

def addUser (client : XrayClient) (tag email proto : String) (level : UInt32)
    (uuid flow vmessSecurity password ssCipher : String) : Call Unit := do
  debugCall "AlterInbound/AddUser" client
  let accountTyped ← ofResult
    (buildAccountTypedMessage (toLowercase proto) uuid flow vmessSecurity password ssCipher)
  let user : User := { level, email, account := some accountTyped }
  let addOp : AddUserOperation := { user := some user }
  let opTyped : TypedMessage :=
    { type := addUserOpType, value := encodeToVec .addUserOperation addOp }
  let req : AlterInboundRequest := { tag, operation := some opTyped }
  let _ ← orError (send client.channel (addToken (.new (.alterInbound req)) client.token))
  return ()

def removeUser (client : XrayClient) (tag email : String) : Call Unit := do
  debugCall "AlterInbound/RemoveUser" client
  let removeOp : RemoveUserOperation := { email }
  let opTyped : TypedMessage :=
    { type := removeUserOpType, value := encodeToVec .removeUserOperation removeOp }
  let req : AlterInboundRequest := { tag, operation := some opTyped }
  let _ ← orError (send client.channel (addToken (.new (.alterInbound req)) client.token))
  return ()

def listInbounds (client : XrayClient) : Call (List Json) := do
  debugCall "ListInbounds" client
  let inbounds : List InboundHandlerConfig ←
    orError (send client.channel (addToken (.new (.listInbounds true)) client.token))
  return inbounds.map fun ib => .obj [("tag", .str ib.tag)]

def addInbound (client : XrayClient) (config : InboundHandlerConfig) : Call Unit := do
  debugCall "AddInbound" client
  let _ ← orError (send client.channel (addToken (.new (.addInbound (some config))) client.token))
  return ()

def removeInbound (client : XrayClient) (tag : String) : Call Unit := do
  debugCall "RemoveInbound" client
  let _ ← orError (send client.channel (addToken (.new (.removeInbound tag)) client.token))
  return ()

def listOutbounds (client : XrayClient) : Call (List Json) := do
  debugCall "ListOutbounds" client
  let outbounds : List OutboundHandlerConfig ←
    orError (send client.channel (addToken (.new .listOutbounds) client.token))
  return outbounds.map fun ob => .obj [("tag", .str ob.tag)]

def addOutbound (client : XrayClient) (config : OutboundHandlerConfig) : Call Unit := do
  debugCall "AddOutbound" client
  let _ ← orError (send client.channel (addToken (.new (.addOutbound (some config))) client.token))
  return ()

def removeOutbound (client : XrayClient) (tag : String) : Call Unit := do
  debugCall "RemoveOutbound" client
  let _ ← orError (send client.channel (addToken (.new (.removeOutbound tag)) client.token))
  return ()

end HandlerService

end XrayBridge
