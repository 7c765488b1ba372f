import XrayBridge.Text

/-! The messages and methods of the vendored protocol files that the program uses.  A field of
message type is an `Option`, and the default of each other field is proto3's. -/

namespace XrayBridge

/-- `xray.common.serial.TypedMessage`. -/
structure TypedMessage where
  type : String := ""
  value : Bytes := []

/-- `xray.common.protocol.SecurityType`. -/
inductive SecurityType where
  | unknown
  | auto
  | aes128Gcm
  | chacha20Poly1305
  | none
  | zero
  deriving DecidableEq

def SecurityType.toInt : SecurityType → Int
  | .unknown => 0
  | .auto => 2
  | .aes128Gcm => 3
  | .chacha20Poly1305 => 4
  | .none => 5
  | .zero => 6

/-- `xray.common.protocol.SecurityConfig`, with its enumeration as the integer that prost keeps. -/
structure SecurityConfig where
  type : Int := 0

/-- `xray.common.protocol.User`. -/
structure User where
  level : UInt32 := 0
  email : String := ""
  account : Option TypedMessage := none

/-- `xray.common.net.Network`. -/
inductive Network where
  | unknown
  | tcp
  | udp
  | unix
  deriving DecidableEq

def Network.toInt : Network → Int
  | .unknown => 0
  | .tcp => 2
  | .udp => 3
  | .unix => 4

/-- `xray.core.InboundHandlerConfig`. -/
structure InboundHandlerConfig where
  tag : String := ""
  receiverSettings : Option TypedMessage := none
  proxySettings : Option TypedMessage := none

/-- `xray.core.OutboundHandlerConfig`. -/
structure OutboundHandlerConfig where
  tag : String := ""
  senderSettings : Option TypedMessage := none
  proxySettings : Option TypedMessage := none
  expire : Int := 0
  comment : String := ""

/-! ### Accounts -/

/-- `xray.proxy.vless.Reverse`, without the sniffing configuration that the program never sets. -/
structure VlessReverse where
  tag : String := ""

/-- `xray.proxy.vless.Account`. -/
structure VlessAccount where
  id : String := ""
  flow : String := ""
  encryption : String := ""
  xorMode : UInt32 := 0
  seconds : UInt32 := 0
  padding : String := ""
  reverse : Option VlessReverse := none
  testpre : UInt32 := 0
  testseed : List UInt32 := []

/-- `xray.proxy.vmess.Account`. -/
structure VmessAccount where
  id : String := ""
  securitySettings : Option SecurityConfig := none
  testsEnabled : String := ""

/-- `xray.proxy.trojan.Account`. -/
structure TrojanAccount where
  password : String := ""

/-- `xray.proxy.shadowsocks.CipherType`. -/
inductive CipherType where
  | unknown
  | aes128Gcm
  | aes256Gcm
  | chacha20Poly1305
  | xchacha20Poly1305
  | none
  deriving DecidableEq

def CipherType.toInt : CipherType → Int
  | .unknown => 0
  | .aes128Gcm => 5
  | .aes256Gcm => 6
  | .chacha20Poly1305 => 7
  | .xchacha20Poly1305 => 8
  | .none => 9

/-- `xray.proxy.shadowsocks.Account`. -/
structure ShadowsocksAccount where
  password : String := ""
  cipherType : Int := 0
  ivCheck : Bool := false

/-! ### `xray.app.proxyman.command` -/

structure AddUserOperation where
  user : Option User := none

structure RemoveUserOperation where
  email : String := ""

structure AlterInboundRequest where
  tag : String := ""
  operation : Option TypedMessage := none

/-- The messages that travel encoded inside the `value` of a `TypedMessage`. -/
inductive MessageKind where
  | addUserOperation
  | removeUserOperation
  | vlessAccount
  | vmessAccount
  | trojanAccount
  | shadowsocksAccount
  deriving DecidableEq

def MessageKind.Payload : MessageKind → Type
  | .addUserOperation => AddUserOperation
  | .removeUserOperation => RemoveUserOperation
  | .vlessAccount => VlessAccount
  | .vmessAccount => VmessAccount
  | .trojanAccount => TrojanAccount
  | .shadowsocksAccount => ShadowsocksAccount

/-- An integer that prost keeps as an `i32`. -/
def FitsI32 (value : Int) : Prop := -2147483648 ≤ value ∧ value < 2147483648

/-- The enumerations of a message are what prost keeps them as. -/
def MessageKind.Representable (k : MessageKind) (m : k.Payload) : Prop :=
  match k, m with
  | .vmessAccount, (m : VmessAccount) => ∀ c ∈ m.securitySettings, FitsI32 c.type
  | .shadowsocksAccount, (m : ShadowsocksAccount) => FitsI32 m.cipherType
  | _, _ => True

/-- The package and the name of a message, as the protocol files declare them. -/
def MessageKind.fullName : MessageKind → String
  | .addUserOperation => "xray.app.proxyman.command.AddUserOperation"
  | .removeUserOperation => "xray.app.proxyman.command.RemoveUserOperation"
  | .vlessAccount => "xray.proxy.vless.Account"
  | .vmessAccount => "xray.proxy.vmess.Account"
  | .trojanAccount => "xray.proxy.trojan.Account"
  | .shadowsocksAccount => "xray.proxy.shadowsocks.Account"

/-! ### `xray.app.stats.command` -/

structure Stat where
  name : String := ""
  value : Int := 0
  deriving DecidableEq

structure SysStatsResponse where
  numGoroutine : UInt32 := 0
  numGC : UInt32 := 0
  alloc : UInt64 := 0
  totalAlloc : UInt64 := 0
  sys : UInt64 := 0
  mallocs : UInt64 := 0
  frees : UInt64 := 0
  liveObjects : UInt64 := 0
  pauseTotalNs : UInt64 := 0
  uptime : UInt32 := 0

structure TrafficUserStat where
  uplink : Int := 0
  downlink : Int := 0

/-- `UserStat`, without the addresses that the program does not read. -/
structure UserStat where
  email : String := ""
  traffic : Option TrafficUserStat := none

/-! ### `xray.app.router.command` -/

/-- `RoutingContext`, with the fields that the program sets or reads. -/
structure RoutingContext where
  inboundTag : String := ""
  network : Int := 0
  targetPort : UInt32 := 0
  targetDomain : String := ""
  protocol : String := ""
  user : String := ""
  outboundGroupTags : List String := []
  outboundTag : String := ""

structure TestRouteRequest where
  routingContext : Option RoutingContext := none
  fieldSelectors : List String := []
  publishResult : Bool := false

structure PrincipleTargetInfo where
  tag : List String := []

structure OverrideInfo where
  target : String := ""

structure BalancerMsg where
  override : Option OverrideInfo := none
  principleTarget : Option PrincipleTargetInfo := none

structure ListRuleItem where
  tag : String := ""
  ruleTag : String := ""

/-! ### Methods -/

/-- A call of one of the methods that the program uses, with its request message. -/
inductive Rpc where
  | alterInbound (request : AlterInboundRequest)
  | listInbounds (isOnlyTags : Bool)
  | addInbound (inbound : Option InboundHandlerConfig)
  | removeInbound (tag : String)
  | listOutbounds
  | addOutbound (outbound : Option OutboundHandlerConfig)
  | removeOutbound (tag : String)
  | queryStats (pattern : String) (reset : Bool)
  | getStats (name : String) (reset : Bool)
  | getSysStats
  | getAllOnlineUsers
  | getUsersStats (includeTraffic reset : Bool)
  | testRoute (request : TestRouteRequest)
  | listRule
  | removeRule (ruleTag : String)
  | getBalancerInfo (tag : String)
  | overrideBalancerTarget (balancerTag target : String)
  | restartLogger

/-- What the response message of a method holds. -/
def Rpc.Reply : Rpc → Type
  | .listInbounds _ => List InboundHandlerConfig
  | .listOutbounds => List OutboundHandlerConfig
  | .queryStats .. => List Stat
  | .getStats .. => Option Stat
  | .getSysStats => SysStatsResponse
  | .getAllOnlineUsers => List String
  | .getUsersStats .. => List UserStat
  | .testRoute _ => RoutingContext
  | .listRule => List ListRuleItem
  | .getBalancerInfo _ => Option BalancerMsg
  | .alterInbound _ | .addInbound _ | .removeInbound _ | .addOutbound _ | .removeOutbound _
  | .removeRule _ | .overrideBalancerTarget .. | .restartLogger => Unit

end XrayBridge
