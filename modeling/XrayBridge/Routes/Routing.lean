import XrayBridge.Routes.Handler

/-! The handlers of the routing service. -/

namespace XrayBridge

open RoutingService

structure TestRouteBody where
  targetDomain : String
  network : String
  inboundTag : String
  user : String

def defaultNetwork : String := "TCP"

def TestRouteBody.fields : List String := ["target_domain", "network", "inbound_tag", "user"]

def TestRouteBody.deserialize (document : Json) : Option TestRouteBody :=
  match structFields TestRouteBody.fields document with
  | some [targetDomain, network, inboundTag, user] => do
    return {
      targetDomain := ← withDefault Json.asStr "" targetDomain
      network := ← withDefault Json.asStr defaultNetwork network
      inboundTag := ← withDefault Json.asStr "" inboundTag
      user := ← withDefault Json.asStr "" user }
  | _ => none

structure OverrideBalancerBody where
  target : String

def OverrideBalancerBody.fields : List String := ["target"]

def OverrideBalancerBody.deserialize (document : Json) : Option OverrideBalancerBody :=
  match structFields OverrideBalancerBody.fields document with
  | some [target] => do return { target := ← required Json.asStr target }
  | _ => none

variable [Platform]

def testRouteHandler : Handler where
  params := noArgument
  body := json TestRouteBody.fields TestRouteBody.deserialize
  run client _ body := do
    let result ← testRoute client body.targetDomain body.network body.inboundTag body.user
    return okJson result

def listRulesHandler : Handler where
  params := noArgument
  body := noArgument
  run client _ _ := do
    let rules ← listRoutingRules client
    return okJson (.arr rules)

def removeRuleHandler : Handler where
  params := path
  body := noArgument
  run client tag _ := removeTag "remove-routing-rule" (removeRoutingRule client) tag

def getBalancerHandler : Handler where
  params := path
  body := noArgument
  run client tag _ := do
    let info ← getBalancerInfo client tag
    return okJson info

def overrideBalancerHandler : Handler where
  params := path
  body := json OverrideBalancerBody.fields OverrideBalancerBody.deserialize
  run client tag body := do
    overrideBalancerTarget client tag body.target
    return okJson (operationResult "override-balancer-target" (.obj [
      ("balancer_tag", .str tag), ("target", .str body.target)]))

end XrayBridge
