import XrayBridge.Grpc
import XrayBridge.Json

/-! The operations on the stats service of a node. -/

namespace XrayBridge

open Platform

namespace StatsService

/-- A counter with the fields of its name. -/
structure StatRecord where
  name : String
  parts : List String
  scope : Option String
  id : Option String
  category : Option String
  metric : Option String
  value : Int
  deriving DecidableEq

/-- The name of a counter is `scope>>>id>>>category>>>metric`. -/
def parseStatName (name : String) : StatRecord :=
  let parts := splitStr ">>>" name
  { name, parts, scope := parts[0]?, id := parts[1]?, category := parts[2]?, metric := parts[3]?,
    value := 0 }

def optionalString (s : Option String) : Json := s.elim .null .str

def StatRecord.toJson (r : StatRecord) : Json := .obj [
  ("name", .str r.name),
  ("parts", .arr (r.parts.map .str)),
  ("scope", optionalString r.scope),
  ("id", optionalString r.id),
  ("category", optionalString r.category),
  ("metric", optionalString r.metric),
  ("value", .int r.value)]

structure SysStats where
  numGoroutine : UInt32
  numGC : UInt32
  alloc : UInt64
  totalAlloc : UInt64
  sys : UInt64
  mallocs : UInt64
  frees : UInt64
  liveObjects : UInt64
  pauseTotalNs : UInt64
  uptime : UInt32

def SysStats.toJson (s : SysStats) : Json := .obj [
  ("NumGoroutine", .int s.numGoroutine.toNat),
  ("NumGC", .int s.numGC.toNat),
  ("Alloc", .int s.alloc.toNat),
  ("TotalAlloc", .int s.totalAlloc.toNat),
  ("Sys", .int s.sys.toNat),
  ("Mallocs", .int s.mallocs.toNat),
  ("Frees", .int s.frees.toNat),
  ("LiveObjects", .int s.liveObjects.toNat),
  ("PauseTotalNs", .int s.pauseTotalNs.toNat),
  ("Uptime", .int s.uptime.toNat)]

structure UserTraffic where
  email : String
  uplink : Int
  downlink : Int

def UserTraffic.toJson (u : UserTraffic) : Json := .obj [
  ("email", .str u.email),
  ("uplink", .int u.uplink),
  ("downlink", .int u.downlink)]

variable [Platform]

def addToken {message : Rpc} (request : TonicRequest message) (token : String) :
    TonicRequest message :=
  withApiToken request token

def queryStats (client : XrayClient) (pattern : String) (reset : Bool) :
    Call (List StatRecord) := do
  debugCall "QueryStats" client
  let stat : List Stat ←
    orError (send client.channel (addToken (.new (.queryStats pattern reset)) client.token))
  return stat.map fun s => { parseStatName s.name with value := s.value }

/-- A counter that the node has not created yet counts as 0. -/
def getStat (client : XrayClient) (name : String) (reset : Bool) : Call Int := do
  debugCall "GetStats" client
  let reply : Except Status (Option Stat) ←
    send client.channel (addToken (.new (.getStats name reset)) client.token)
  match reply with
  | .ok stat => return (stat.map (·.value)).getD 0
  | .error status =>
    let details := toLowercase status.message
    if status.code = .notFound || (status.code = .unknown && contains details "not found") then
      return 0
    else throw (AppError.ofStatus status)

def getSysStats (client : XrayClient) : Call SysStats := do
  debugCall "GetSysStats" client
  let r : SysStatsResponse ←
    orError (send client.channel (addToken (.new .getSysStats) client.token))
  return {
    numGoroutine := r.numGoroutine, numGC := r.numGC, alloc := r.alloc,
    totalAlloc := r.totalAlloc, sys := r.sys, mallocs := r.mallocs, frees := r.frees,
    liveObjects := r.liveObjects, pauseTotalNs := r.pauseTotalNs, uptime := r.uptime }

def getAllOnlineUsers (client : XrayClient) : Call (List String) := do
  debugCall "GetAllOnlineUsers" client
  orError (send client.channel (addToken (.new .getAllOnlineUsers) client.token))

def getUsersStats (client : XrayClient) (reset : Bool) : Call (List UserTraffic) := do
  debugCall "GetUsersStats" client
  let users : List UserStat ←
    orError (send client.channel (addToken (.new (.getUsersStats true reset)) client.token))
  return users.map fun u =>
    let (uplink, downlink) := (u.traffic.map fun t => (t.uplink, t.downlink)).getD (0, 0)
    { email := u.email, uplink, downlink }

/-- The loop of `list_users` over the records, with the `BTreeSet` that it fills. -/
def collectIds (records : List StatRecord) : Std.ExtTreeSet String byteOrder :=
  records.foldl (fun emails rec => rec.id.elim emails emails.insert) ∅

/-- The users are those that have traffic records. -/
def listUsers (client : XrayClient) : Call (List String) := do
  let records ← queryStats client "user>>>" false
  return (collectIds records).toList

end StatsService

end XrayBridge
