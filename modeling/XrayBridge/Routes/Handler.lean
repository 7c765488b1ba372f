import XrayBridge.Routes.Stats
import XrayBridge.Xray.Handler
import XrayBridge.Xray.Routing

/-! The handlers of users, inbounds, outbounds and the logger. -/

namespace XrayBridge

open Platform HandlerService RoutingService

structure AddUserBody where
  tag : String
  email : String
  proto : String
  level : UInt32
  uuid : String
  flow : String
  vmessSecurity : String
  password : String
  ssCipher : String

def defaultProto : String := "vless"
def defaultVmessSecurity : String := "AUTO"
def defaultSsCipher : String := "CHACHA20_POLY1305"

def AddUserBody.fields : List String :=
  ["tag", "email", "proto", "level", "uuid", "flow", "vmess_security", "password", "ss_cipher"]

def AddUserBody.deserialize (document : Json) : Option AddUserBody :=
  match structFields AddUserBody.fields document with
  | some [tag, email, proto, level, uuid, flow, vmessSecurity, password, ssCipher] => do
    return {
      tag := ← required Json.asStr tag
      email := ← required Json.asStr email
      proto := ← withDefault Json.asStr defaultProto proto
      level := ← withDefault Json.asU32 0 level
      uuid := ← withDefault Json.asStr "" uuid
      flow := ← withDefault Json.asStr "" flow
      vmessSecurity := ← withDefault Json.asStr defaultVmessSecurity vmessSecurity
      password := ← withDefault Json.asStr "" password
      ssCipher := ← withDefault Json.asStr defaultSsCipher ssCipher }
  | _ => none

structure InboundConfigBody where
  config : Json

def InboundConfigBody.fields : List String := ["config"]

def InboundConfigBody.deserialize (document : Json) : Option InboundConfigBody :=
  match structFields InboundConfigBody.fields document with
  | some [config] => do return { config := ← required some config }
  | _ => none

structure RemoveUserQuery where
  tag : String
  ignoreMissing : Bool

def defaultIgnoreMissing : Bool := true

def RemoveUserQuery.deserialize (pairs : List (String × String)) : Option RemoveUserQuery :=
  match queryFields ["tag", "ignore_missing"] pairs with
  | some [tag, ignoreMissing] => do
    return {
      tag := ← required some tag
      ignoreMissing := ← withDefault parseBool defaultIgnoreMissing ignoreMissing }
  | _ => none

def operationResult (action : String) (detail : Json) : Json := .obj [
  ("ok", .bool true), ("action", .str action), ("persisted", .bool false), ("detail", detail)]

section Config

variable [Platform]

/-- The `TypedMessage` of an optional field, `{"type": .., "value": <base64>}`. -/
def extractTypedMessage (obj : Json) (field : String) : Except AppError (Option TypedMessage) :=
  match obj.get field with
  | none => .ok none
  | some sub => do
    let some type := (sub.get "type").bind Json.asStr
      | .error (.unprocessableEntity (field ++ ".type must be a string"))
    let some valueB64 := (sub.get "value").bind Json.asStr
      | .error (.unprocessableEntity (field ++ ".value must be a base64 string"))
    match b64Decode valueB64 with
    | .ok value => return some { type, value }
    | .error e => .error (.unprocessableEntity (field ++ ".value base64 decode error: " ++ e))

/-- The tag with which both conversions of a configuration start. -/
def configTag (v : Json) : Except AppError String :=
  match (v.get "tag").bind Json.asStr with
  | some tag => .ok tag
  | none => .error (.unprocessableEntity "config.tag is required")

def jsonToInboundConfig (v : Json) : Except AppError InboundHandlerConfig := do
  let tag ← configTag v
  let receiverSettings ← extractTypedMessage v "receiver_settings"
  let proxySettings ← extractTypedMessage v "proxy_settings"
  return { tag, receiverSettings, proxySettings }

def jsonToOutboundConfig (v : Json) : Except AppError OutboundHandlerConfig := do
  let tag ← configTag v
  let senderSettings ← extractTypedMessage v "sender_settings"
  let proxySettings ← extractTypedMessage v "proxy_settings"
  return { tag, senderSettings, proxySettings }

end Config

variable [Platform]

/-- `(StatusCode::CREATED, Json(value))` -/
def createdJson (value : Json) : Response := ⟨201, .json value⟩

/-- The call with the fields of the body. -/
def AddUserBody.add (body : AddUserBody) (client : XrayClient) : Call Unit :=
  addUser client body.tag body.email body.proto body.level body.uuid body.flow
    body.vmessSecurity body.password body.ssCipher

def addUserHandler : Handler where
  params := noArgument
  body := json AddUserBody.fields AddUserBody.deserialize
  run client _ body := do
    body.add client
    let result := operationResult "add-user" (.obj [
      ("tag", .str body.tag), ("email", .str body.email), ("proto", .str body.proto)])
    return createdJson result

def removeUserHandler : Handler where
  params parts := do return (← path parts, ← query RemoveUserQuery.deserialize parts)
  body := noArgument
  run client params _ := do
    let (email, q) := params
    let outcome : Except AppError Unit ← (removeUser client q.tag email).run
    match outcome with
    | .ok () =>
      return okJson (operationResult "remove-user" (.obj [
        ("tag", .str q.tag), ("email", .str email)]))
    | .error (.grpc code details) =>
      let isNotFound : Bool :=
        code = .notFound || (code = .unknown && contains (toLowercase details) "not found")
      if isNotFound && q.ignoreMissing then
        return okJson (operationResult "remove-user" (.obj [
          ("tag", .str q.tag), ("email", .str email), ("note", .str "not found, ignored")]))
      else throw (.grpc code details)
    | .error e => throw e

def listInboundsHandler : Handler where
  params := noArgument
  body := noArgument
  run client _ _ := do
    let inbounds ← listInbounds client
    return okJson (.arr inbounds)

/-- The body that the handlers of new inbounds and outbounds share: the check of the field, the
conversion of the configuration, the call and the result. -/
def addConfig {C : Type} (action : String) (convert : Json → Except AppError C)
    (add : C → Call Unit) (body : InboundConfigBody) : Call Response :=
  if (body.config.get "tag").isNone then
    throw (.unprocessableEntity "config 必须包含 'tag' 字段")
  else do
    let tag := ((body.config.get "tag").bind Json.asStr).getD ""
    let config ← ofResult (convert body.config)
    add config
    return createdJson (operationResult action (.obj [("tag", .str tag)]))

def addInboundHandler : Handler where
  params := noArgument
  body := json InboundConfigBody.fields InboundConfigBody.deserialize
  run client _ body := addConfig "add-inbound" jsonToInboundConfig (addInbound client) body

def removeTag (action : String) (remove : String → Call Unit) (tag : String) : Call Response := do
  remove tag
  return okJson (operationResult action (.obj [("tag", .str tag)]))

def removeInboundHandler : Handler where
  params := path
  body := noArgument
  run client tag _ := removeTag "remove-inbound" (removeInbound client) tag

def listOutboundsHandler : Handler where
  params := noArgument
  body := noArgument
  run client _ _ := do
    let outbounds ← listOutbounds client
    return okJson (.arr outbounds)

def addOutboundHandler : Handler where
  params := noArgument
  body := json InboundConfigBody.fields InboundConfigBody.deserialize
  run client _ body := addConfig "add-outbound" jsonToOutboundConfig (addOutbound client) body

def removeOutboundHandler : Handler where
  params := path
  body := noArgument
  run client tag _ := removeTag "remove-outbound" (removeOutbound client) tag

def restartLoggerHandler : Handler where
  params := noArgument
  body := noArgument
  run client _ _ := do
    restartLogger client
    return okJson (operationResult "restart-logger" (.obj []))

end XrayBridge
