import XrayBridge.Routes.Extract
import XrayBridge.Xray.Stats

/-! The handlers of `GET /v1/sys`, `GET /v1/users*` and `GET /v1/stats*`. -/

namespace XrayBridge

open StatsService

structure ResetQuery where
  reset : Bool

def ResetQuery.deserialize (pairs : List (String × String)) : Option ResetQuery :=
  match queryFields ["reset"] pairs with
  | some [reset] => do return { reset := ← withDefault parseBool false reset }
  | _ => none

structure StatsQuery where
  pattern : String
  reset : Bool

def StatsQuery.deserialize (pairs : List (String × String)) : Option StatsQuery :=
  match queryFields ["pattern", "reset"] pairs with
  | some [pattern, reset] => do
    return {
      pattern := ← withDefault some "" pattern
      reset := ← withDefault parseBool false reset }
  | _ => none

variable [Platform]

/-- `(StatusCode::OK, Json(value))` -/
def okJson (value : Json) : Response := ⟨200, .json value⟩

def getSysStatsHandler : Handler where
  params := noArgument
  body := noArgument
  run client _ _ := do
    let stats ← getSysStats client
    return okJson stats.toJson

def listUsersHandler : Handler where
  params := noArgument
  body := noArgument
  run client _ _ := do
    let users ← listUsers client
    return okJson (.arr (users.map .str))

def getOnlineUsersHandler : Handler where
  params := noArgument
  body := noArgument
  run client _ _ := do
    let users ← getAllOnlineUsers client
    return okJson (.arr (users.map .str))

def getUsersStatsHandler : Handler where
  params := query ResetQuery.deserialize
  body := noArgument
  run client q _ := do
    let stats ← getUsersStats client q.reset
    return okJson (.arr (stats.map UserTraffic.toJson))

def queryStatsHandler : Handler where
  params := query StatsQuery.deserialize
  body := noArgument
  run client q _ := do
    let records ← queryStats client q.pattern q.reset
    return okJson (.arr (records.map StatRecord.toJson))

def getStatHandler : Handler where
  params parts := do return (← path parts, ← query ResetQuery.deserialize parts)
  body := noArgument
  run client params _ := do
    let (name, q) := params
    let value ← getStat client name q.reset
    let record := { parseStatName name with value }
    return okJson record.toJson

end XrayBridge
