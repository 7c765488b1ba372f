import XrayBridge.Grpc

/-! The operations on the routing service and the logger service of a node. -/

namespace XrayBridge

namespace RoutingService

variable [Platform]

def addToken {message : Rpc} (request : TonicRequest message) (token : String) :
    TonicRequest message :=
  withApiToken request token

def networkFromStr (s : String) : Int :=
  let upper := toUppercase s
  if upper = "TCP" then Network.tcp.toInt
  else if upper = "UDP" then Network.udp.toInt
  else Network.tcp.toInt

def testRoute (client : XrayClient) (targetDomain network inboundTag user : String) :
    Call Json := do
  debugCall "TestRoute" client
  let ctx : RoutingContext :=
    { targetDomain, network := networkFromStr network, inboundTag, user }
  let req : TestRouteRequest :=
    { routingContext := some ctx, fieldSelectors := [], publishResult := false }
  let r : RoutingContext ←
    orError (send client.channel (addToken (.new (.testRoute req)) client.token))
  return .obj [
    ("OutboundTag", .str r.outboundTag),
    ("InboundTag", .str r.inboundTag),
    ("Network", .int r.network),
    ("TargetDomain", .str r.targetDomain),
    ("TargetPort", .int r.targetPort.toNat),
    ("Protocol", .str r.protocol),
    ("User", .str r.user),
    ("OutboundGroupTags", .arr (r.outboundGroupTags.map .str))]

def listRoutingRules (client : XrayClient) : Call (List Json) := do
  debugCall "ListRule" client
  let rules : List ListRuleItem ←
    orError (send client.channel (addToken (.new .listRule) client.token))
  return rules.map fun r => .obj [("tag", .str r.tag), ("ruleTag", .str r.ruleTag)]

def removeRoutingRule (client : XrayClient) (ruleTag : String) : Call Unit := do
  debugCall "RemoveRule" client
  let _ ← orError (send client.channel (addToken (.new (.removeRule ruleTag)) client.token))
  return ()

def getBalancerInfo (client : XrayClient) (tag : String) : Call Json := do
  debugCall "GetBalancerInfo" client
  let balancer : Option BalancerMsg ←
    orError (send client.channel (addToken (.new (.getBalancerInfo tag)) client.token))
  let b := balancer.getD {}
  let overrideTarget := (b.override.map (·.target)).getD ""
  let principleTargets := (b.principleTarget.map (·.tag)).getD []
  return .obj [
    ("override_target", .str overrideTarget),
    ("principle_targets", .arr (principleTargets.map .str))]

def overrideBalancerTarget (client : XrayClient) (balancerTag target : String) : Call Unit := do
  debugCall "OverrideBalancerTarget" client
  let _ ← orError (send client.channel
    (addToken (.new (.overrideBalancerTarget balancerTag target)) client.token))
  return ()

def restartLogger (client : XrayClient) : Call Unit := do
  debugCall "RestartLogger" client
  let _ ← orError (send client.channel (addToken (.new .restartLogger) client.token))
  return ()

end RoutingService

end XrayBridge
