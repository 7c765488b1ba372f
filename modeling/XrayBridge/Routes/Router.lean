import XrayBridge.Routes.Routing

/-! The router: its table of routes, and the request that reaches a handler. -/

namespace XrayBridge

open Platform
open PathTemplate (Template Captures)

/-- The operations below `/v1`, one for each handler. -/
inductive Endpoint where
  | getSysStats
  | listUsers
  | getOnlineUsers
  | getUsersStats
  | queryStats
  | getStat
  | addUser
  | removeUser
  | listInbounds
  | addInbound
  | removeInbound
  | listOutbounds
  | addOutbound
  | removeOutbound
  | restartLogger
  | testRoute
  | listRules
  | removeRule
  | getBalancer
  | overrideBalancer
  deriving DecidableEq

inductive Service where
  | healthz
  | endpoint (e : Endpoint)
  deriving DecidableEq

/-- What the router does for the methods of a template. -/
abbrev MethodRouter := List (Method × Service)

/-- A template as the program writes it: `:name` is a parameter, and `*name` the rest. -/
def template (text : String) : Template :=
  (PathTemplate.segments text).map fun part =>
    match part.toList with
    | ':' :: name => .param (String.ofList name)
    | '*' :: name => .rest (String.ofList name)
    | _ => .fixed part

/-- A table of routes, with a template at most once. -/
abbrev Routes := List (Template × MethodRouter)

/-- `Router::route`: the methods of a template that the table has are added to those it has. -/
def Routes.route (routes : Routes) (text : String) (methods : MethodRouter) : Routes :=
  if (routes.map (·.1)).contains (template text) then
    routes.map fun (t, old) => if t = template text then (t, old ++ methods) else (t, old)
  else routes ++ [(template text, methods)]

def buildRouter : Routes :=
  Routes.route [] "/healthz" [(.get, .healthz)]
  |>.route "/v1/sys" [(.get, .endpoint .getSysStats)]
  |>.route "/v1/users" [(.get, .endpoint .listUsers)]
  |>.route "/v1/users/online" [(.get, .endpoint .getOnlineUsers)]
  |>.route "/v1/users/stats" [(.get, .endpoint .getUsersStats)]
  |>.route "/v1/stats" [(.get, .endpoint .queryStats)]
  |>.route "/v1/stats/*name" [(.get, .endpoint .getStat)]
  |>.route "/v1/users" [(.post, .endpoint .addUser)]
  |>.route "/v1/users/:email" [(.delete, .endpoint .removeUser)]
  |>.route "/v1/inbounds" [(.get, .endpoint .listInbounds), (.post, .endpoint .addInbound)]
  |>.route "/v1/inbounds/:tag" [(.delete, .endpoint .removeInbound)]
  |>.route "/v1/outbounds" [(.get, .endpoint .listOutbounds), (.post, .endpoint .addOutbound)]
  |>.route "/v1/outbounds/:tag" [(.delete, .endpoint .removeOutbound)]
  |>.route "/v1/logger/restart" [(.post, .endpoint .restartLogger)]
  |>.route "/v1/routing/test" [(.post, .endpoint .testRoute)]
  |>.route "/v1/routing/rules" [(.get, .endpoint .listRules)]
  |>.route "/v1/routing/rules/:tag" [(.delete, .endpoint .removeRule)]
  |>.route "/v1/routing/balancers/:tag"
    [(.get, .endpoint .getBalancer), (.put, .endpoint .overrideBalancer)]

def templates : List Template := buildRouter.map (·.1)

/-- What a template's methods lead to; a route for `GET` also answers `HEAD`. -/
def MethodRouter.service (methods : MethodRouter) (method : Method) : Option Service :=
  match methods.lookup method with
  | some service => some service
  | none => if method = .head then methods.lookup .get else none

variable [Platform]

def Endpoint.handler : Endpoint → Handler
  | .getSysStats => getSysStatsHandler
  | .listUsers => listUsersHandler
  | .getOnlineUsers => getOnlineUsersHandler
  | .getUsersStats => getUsersStatsHandler
  | .queryStats => queryStatsHandler
  | .getStat => getStatHandler
  | .addUser => addUserHandler
  | .removeUser => removeUserHandler
  | .listInbounds => listInboundsHandler
  | .addInbound => addInboundHandler
  | .removeInbound => removeInboundHandler
  | .listOutbounds => listOutboundsHandler
  | .addOutbound => addOutboundHandler
  | .removeOutbound => removeOutboundHandler
  | .restartLogger => restartLoggerHandler
  | .testRoute => testRouteHandler
  | .listRules => listRulesHandler
  | .removeRule => removeRuleHandler
  | .getBalancer => getBalancerHandler
  | .overrideBalancer => overrideBalancerHandler

/-- The service of a request with the captures of its route, or the answer of the router itself:
the path selects a template before the method is looked at. -/
def dispatch (method : Method) (path : String) : Except Response (Service × Captures) :=
  match matchRoute templates path with
  | none => .error .notFound
  | some (t, captures) =>
    match ((buildRouter.lookup t).getD []).service method with
    | some service => .ok (service, captures)
    | none => .error .methodNotAllowed

def Service.serve (service : Service) (settings : Settings) (parts : Parts)
    (cache : XrayClientCache) : Grpc Response × XrayClientCache :=
  match service with
  | .healthz => (pure (okJson (.obj [("ok", .bool true)])), cache)
  | .endpoint e => e.handler.serve settings parts cache

/-- The program's answer to a request: what it does after the extractors, and the cache that they
leave. -/
def handle (settings : Settings) (request : HttpRequest) (cache : XrayClientCache) :
    Grpc Response × XrayClientCache :=
  match dispatch request.method request.path with
  | .error response => (pure response, cache)
  | .ok (service, captures) =>
    let (answer, cache) := service.serve settings ⟨request, captures⟩ cache
    (if request.method = .head then Response.withoutBody <$> answer else answer, cache)

end XrayBridge
