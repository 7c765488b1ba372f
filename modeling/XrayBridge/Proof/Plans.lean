import XrayBridge.Proof.Configs
import XrayBridge.Proof.Interference
import XrayBridge.Proof.RemovingNode

/-! What the program does for a request, apart from the client that its cache hands out: it answers,
or it makes one call and answers from the reply.  The client changes only the channel of the call
and the name in the events. -/

namespace XrayBridge

open Platform StatsService HandlerService RoutingService

/-- The answer to a `HEAD` request has no body. -/
def answerTo (request : HttpRequest) (response : Response) : Response :=
  if request.method = .head then response.withoutBody else response

@[simp] theorem answerTo_status (request : HttpRequest) (response : Response) :
    (answerTo request response).status = response.status := by
  unfold answerTo
  split <;> rfl

theorem answerTo_of_ne {request : HttpRequest} (h : request.method ≠ .head) (response : Response) :
    answerTo request response = response := if_neg h

/-! ### Responses without news -/

/-- The response has no more than the fields of an error or of the health check. -/
def Response.Plain (response : Response) : Prop :=
  ∀ document, response.body = .json document →
    ∃ fields, document = .obj fields ∧ ∀ field ∈ fields, field.1 ∈ ["ok", "code", "error"]

theorem Response.Plain.get {response : Response} (h : response.Plain) {document : Json}
    (hbody : response.body = .json document) {field : String}
    (hfield : field ∉ ["ok", "code", "error"]) : document.get field = none := by
  obtain ⟨fields, rfl, hfields⟩ := h document hbody
  rw [Json.get, List.find?_eq_none.mpr, Option.map_none]
  intro other hmem heq
  have hother := hfields other (List.mem_reverse.mp hmem)
  rw [of_decide_eq_true heq] at hother
  exact hfield hother

theorem plain_of_json {status : Nat} {fields : List (String × Json)}
    (h : ∀ field ∈ fields, field.1 ∈ ["ok", "code", "error"]) :
    (Response.mk status (.json (.obj fields))).Plain := by
  rintro document ⟨⟩
  exact ⟨fields, rfl, h⟩

theorem plain_answerTo {request : HttpRequest} {response : Response} (h : response.Plain) :
    (answerTo request response).Plain := by
  unfold answerTo
  split
  · exact fun document hbody => nomatch hbody
  · exact h

section

variable [Platform]

/-! ### Plans -/

/-- What a handler does with its arguments: it answers at once, or it makes one call and answers
from what comes back.  Before that it may emit an event. -/
inductive Plan where
  | refuse (event : Option String) (response : Response)
  | call (event : String) (message : Rpc) (respond : Except Status message.Reply → Response)

namespace Plan

/-- The plan, carried out with a client. -/
def task (client : XrayClient) : Plan → Grpc Response
  | refuse none response => .done response
  | refuse (some event) response =>
    .ask (.trace (.grpcCall event client.name)) fun _ => .done response
  | call event message respond =>
    .ask (.trace (.grpcCall event client.name)) fun _ =>
      .ask (.rpc (client.request message)) fun reply => .done (respond reply)

def message : Plan → Option Rpc
  | refuse _ _ => none
  | call _ message _ => some message

def map (f : Response → Response) : Plan → Plan
  | refuse event response => refuse event (f response)
  | call event message respond => call event message fun reply => f (respond reply)

theorem task_map (f : Response → Response) (plan : Plan) (client : XrayClient) :
    (plan.map f).task client = plan.task client >>= fun response => .done (f response) := by
  match plan with
  | refuse none response | refuse (some event) response | call event message respond => rfl

/-- Each event and the call are a question. -/
theorem within_task (plan : Plan) (client : XrayClient) :
    (plan.task client).Within (fun _ => True) (fun _ => 1) 2 := by
  match plan with
  | refuse none response => exact Dialogue.within_done response
  | refuse (some event) response => exact ⟨trivial, Nat.le_succ 1, fun _ => Dialogue.within_done _⟩
  | call event message respond =>
    exact ⟨trivial, Nat.le_succ 1, fun _ =>
      ⟨trivial, Nat.le_refl 1, fun _ => Dialogue.within_done _⟩⟩

theorem asks_task {plan : Plan} {client : XrayClient} {request : GrpcRequest}
    (h : (plan.task client).Asks (.rpc request)) :
    ∃ message, request = client.request message := by
  match plan with
  | refuse none response => exact absurd h Dialogue.not_asks_done
  | refuse (some event) response =>
    rcases Dialogue.asks_ask.mp h with heq | ⟨_, h⟩
    · cases heq
    · exact absurd h Dialogue.not_asks_done
  | call event message respond =>
    rcases Dialogue.asks_ask.mp h with heq | ⟨_, h⟩
    · cases heq
    rcases Dialogue.asks_ask.mp h with heq | ⟨_, h⟩
    · cases heq
      exact ⟨message, rfl⟩
    · exact absurd h Dialogue.not_asks_done

end Plan

/-- How a failure of a call is answered that does not say that something is missing. -/
def forwarded (status : Status) : Response := (AppError.ofStatus status).intoResponse

/-- A failure of the call is answered as `forward` says unless it says that something is missing. -/
def Plan.Forwards (forward : Status → Response) : Plan → Prop
  | refuse _ _ => True
  | call _ _ respond =>
    ∀ status : Status, status.saysMissing = false → respond (.error status) = forward status

theorem Plan.Forwards.map {forward : Status → Response} {plan : Plan} (h : plan.Forwards forward)
    (f : Response → Response) : (plan.map f).Forwards (f ∘ forward) := by
  match plan with
  | refuse event response => trivial
  | call event message respond => exact fun status hstatus => congrArg f (h status hstatus)

/-! ### The plans of the operations -/

/-- The answer from a reply, and the answer to a failure. -/
def respondWith {α : Type} (read : α → Response) : Except Status α → Response
  | .ok reply => read reply
  | .error status => forwarded status

def StatsService.SysStats.ofReply (r : SysStatsResponse) : SysStats where
  numGoroutine := r.numGoroutine
  numGC := r.numGC
  alloc := r.alloc
  totalAlloc := r.totalAlloc
  sys := r.sys
  mallocs := r.mallocs
  frees := r.frees
  liveObjects := r.liveObjects
  pauseTotalNs := r.pauseTotalNs
  uptime := r.uptime

def StatsService.UserTraffic.ofUserStat (u : UserStat) : UserTraffic :=
  let (uplink, downlink) := (u.traffic.map fun t => (t.uplink, t.downlink)).getD (0, 0)
  { email := u.email, uplink, downlink }

/-- The answer with the value of a counter. -/
def statValue (name : String) (value : Int) : Response :=
  okJson (StatRecord.ofStat { name, value }).toJson

def statResponse (name : String) : Except Status (Option Stat) → Response
  | .ok stat => statValue name ((stat.map (·.value)).getD 0)
  | .error status => if status.saysMissing then statValue name 0 else forwarded status

def routeJson (r : RoutingContext) : Json := .obj [
  ("OutboundTag", .str r.outboundTag),
  ("InboundTag", .str r.inboundTag),
  ("Network", .int r.network),
  ("TargetDomain", .str r.targetDomain),
  ("TargetPort", .int r.targetPort.toNat),
  ("Protocol", .str r.protocol),
  ("User", .str r.user),
  ("OutboundGroupTags", .arr (r.outboundGroupTags.map .str))]

def balancerJson (balancer : Option BalancerMsg) : Json :=
  let b := balancer.getD {}
  .obj [
    ("override_target", .str ((b.override.map (·.target)).getD "")),
    ("principle_targets", .arr (((b.principleTarget.map (·.tag)).getD []).map .str))]

def tagJson (tag : String) : Json := .obj [("tag", .str tag)]

def ruleJson (r : ListRuleItem) : Json := .obj [("tag", .str r.tag), ("ruleTag", .str r.ruleTag)]

def TestRouteBody.request (body : TestRouteBody) : TestRouteRequest where
  routingContext := some {
    targetDomain := body.targetDomain
    network := networkFromStr body.network
    inboundTag := body.inboundTag
    user := body.user }

def addUserPlan (body : AddUserBody) : Plan :=
  match buildAccountTypedMessage (toLowercase body.proto) body.uuid body.flow body.vmessSecurity
    body.password body.ssCipher with
  | .error e => .refuse (some "AlterInbound/AddUser") e.intoResponse
  | .ok account =>
    .call "AlterInbound/AddUser" (.alterInbound (body.request account)) (respondWith fun _ =>
      createdJson (operationResult "add-user" (.obj [
        ("tag", .str body.tag), ("email", .str body.email), ("proto", .str body.proto)])))

/-- The plan for a new inbound or outbound. -/
def configPlan {C : Type} (action event : String) (convert : Json → Except AppError C)
    (message : C → Rpc) (config : Json) : Plan :=
  if (config.get "tag").isNone then
    .refuse none (AppError.unprocessableEntity "config 必须包含 'tag' 字段").intoResponse
  else
    match convert config with
    | .error e => .refuse none e.intoResponse
    | .ok c =>
      .call event (message c) (respondWith fun _ => createdJson (operationResult action
        (tagJson (((config.get "tag").bind Json.asStr).getD ""))))

/-- The plan of a command that reports the tag that it is about. -/
def tagPlan (action event : String) (message : Rpc) (tag : String) : Plan :=
  .call event message (respondWith fun _ => okJson (operationResult action (tagJson tag)))

def Endpoint.plan : (e : Endpoint) → e.handler.Params → e.handler.Body → Plan
  | .getSysStats, _, _ =>
    .call "GetSysStats" .getSysStats (respondWith fun reply =>
      okJson (SysStats.ofReply reply).toJson)
  | .listUsers, _, _ =>
    .call "QueryStats" (.queryStats "user>>>" false) (respondWith fun (stats : List Stat) =>
      okJson (.arr ((collectIds (stats.map .ofStat)).toList.map .str)))
  | .getOnlineUsers, _, _ =>
    .call "GetAllOnlineUsers" .getAllOnlineUsers (respondWith fun (users : List String) =>
      okJson (.arr (users.map .str)))
  | .getUsersStats, (q : ResetQuery), _ =>
    .call "GetUsersStats" (.getUsersStats true q.reset) (respondWith fun (users : List UserStat) =>
      okJson (.arr ((users.map UserTraffic.ofUserStat).map UserTraffic.toJson)))
  | .queryStats, (q : StatsQuery), _ =>
    .call "QueryStats" (.queryStats q.pattern q.reset) (respondWith fun (stats : List Stat) =>
      okJson (.arr ((stats.map .ofStat).map StatRecord.toJson)))
  | .getStat, ((name, q) : String × ResetQuery), _ =>
    .call "GetStats" (.getStats name q.reset) (statResponse name)
  | .addUser, _, (body : AddUserBody) => addUserPlan body
  | .removeUser, ((email, q) : String × RemoveUserQuery), _ =>
    .call "AlterInbound/RemoveUser" (.alterInbound (removeUserRequest (q.tag, email)))
      (removeUserResponse email q)
  | .listInbounds, _, _ =>
    .call "ListInbounds" (.listInbounds true)
      (respondWith fun (inbounds : List InboundHandlerConfig) =>
        okJson (.arr (inbounds.map fun ib => tagJson ib.tag)))
  | .addInbound, _, (body : InboundConfigBody) =>
    configPlan "add-inbound" "AddInbound" jsonToInboundConfig (fun c => .addInbound (some c))
      body.config
  | .removeInbound, (tag : String), _ =>
    tagPlan "remove-inbound" "RemoveInbound" (.removeInbound tag) tag
  | .listOutbounds, _, _ =>
    .call "ListOutbounds" .listOutbounds
      (respondWith fun (outbounds : List OutboundHandlerConfig) =>
        okJson (.arr (outbounds.map fun ob => tagJson ob.tag)))
  | .addOutbound, _, (body : InboundConfigBody) =>
    configPlan "add-outbound" "AddOutbound" jsonToOutboundConfig (fun c => .addOutbound (some c))
      body.config
  | .removeOutbound, (tag : String), _ =>
    tagPlan "remove-outbound" "RemoveOutbound" (.removeOutbound tag) tag
  | .restartLogger, _, _ =>
    .call "RestartLogger" .restartLogger (respondWith fun _ =>
      okJson (operationResult "restart-logger" (.obj [])))
  | .testRoute, _, (body : TestRouteBody) =>
    .call "TestRoute" (.testRoute body.request) (respondWith fun reply => okJson (routeJson reply))
  | .listRules, _, _ =>
    .call "ListRule" .listRule (respondWith fun (rules : List ListRuleItem) =>
      okJson (.arr (rules.map ruleJson)))
  | .removeRule, (tag : String), _ =>
    tagPlan "remove-routing-rule" "RemoveRule" (.removeRule tag) tag
  | .getBalancer, (tag : String), _ =>
    .call "GetBalancerInfo" (.getBalancerInfo tag) (respondWith fun reply =>
      okJson (balancerJson reply))
  | .overrideBalancer, (tag : String), (body : OverrideBalancerBody) =>
    .call "OverrideBalancerTarget" (.overrideBalancerTarget tag body.target) (respondWith fun _ =>
      okJson (operationResult "override-balancer-target" (.obj [
        ("balancer_tag", .str tag), ("target", .str body.target)])))

theorem forwards_configPlan {C : Type} {action event : String}
    {convert : Json → Except AppError C} {message : C → Rpc} {config : Json} :
    (configPlan action event convert message config).Forwards forwarded := by
  unfold configPlan
  split
  · trivial
  · split
    · trivial
    · exact fun status _ => rfl

theorem forwards_plan (e : Endpoint) (params : e.handler.Params) (body : e.handler.Body) :
    (e.plan params body).Forwards forwarded := by
  cases e with
  | addUser =>
    show (addUserPlan body).Forwards forwarded
    unfold addUserPlan
    split
    · trivial
    · exact fun status _ => rfl
  | addInbound | addOutbound => exact forwards_configPlan
  | getStat => exact fun status hstatus => if_neg (by simp [hstatus])
  | removeUser => exact fun status hstatus => if_neg (by simp [hstatus])
  | _ => exact fun status _ => rfl

/-- A task that emits its event, makes its call and answers. -/
theorem call_task {client : XrayClient} {event : String} {message : Rpc}
    {respond : Except Status message.Reply → Response}
    {next : Except Status message.Reply → Grpc Response}
    (h : ∀ reply, next reply = .done (respond reply)) :
    .ask (.trace (.grpcCall event client.name))
        (fun _ => .ask (.rpc (client.request message)) next) =
      (Plan.call event message respond).task client :=
  congrArg (Dialogue.ask _) (funext fun _ => congrArg (Dialogue.ask _) (funext h))

theorem toResponse_addConfig {C : Type} {client : XrayClient} {action event : String}
    {convert : Json → Except AppError C} {message : C → Rpc} {add : C → Call Unit}
    (hadd : ∀ c, add c = command event client (message c)) (body : InboundConfigBody) :
    toResponse (addConfig action convert add body) =
      (configPlan action event convert message body.config).task client := by
  unfold addConfig configPlan
  split
  · rfl
  · dsimp only
    cases hconvert : convert body.config with
    | error e => rfl
    | ok c =>
      show toResponse (add c >>= _) = _
      rw [hadd]
      refine call_task fun reply => ?_
      cases reply <;> rfl

/-- What a handler does is its plan, carried out with its client. -/
theorem toResponse_run (e : Endpoint) (client : XrayClient) (params : e.handler.Params)
    (body : e.handler.Body) :
    toResponse (e.handler.run client params body) = (e.plan params body).task client := by
  cases e with
  | addUser =>
    show toResponse (addUserHandler.run client () body) = (addUserPlan body).task client
    unfold addUserPlan addUserHandler AddUserBody.add addUser
    dsimp only
    cases buildAccountTypedMessage (toLowercase (AddUserBody.proto body)) (AddUserBody.uuid body)
      (AddUserBody.flow body) (AddUserBody.vmessSecurity body) (AddUserBody.password body)
      (AddUserBody.ssCipher body) with
    | error e => rfl
    | ok account =>
      refine call_task fun reply => ?_
      cases reply <;> rfl
  | addInbound => exact toResponse_addConfig (fun _ => rfl) body
  | addOutbound => exact toResponse_addConfig (fun _ => rfl) body
  | removeUser => exact toResponse_removeUser client params.1 params.2
  | getStat =>
    refine call_task fun reply => ?_
    rcases reply with status | stat
    · show toResponse ((if status.saysMissing then pure 0 else throw (.ofStatus status) : Call Int)
        >>= fun value => pure (statValue params.1 value)) =
          .done (if status.saysMissing then statValue params.1 0 else forwarded status)
      cases status.saysMissing <;> rfl
    · rfl
  | _ =>
    refine call_task fun reply => ?_
    rcases reply with status | reply <;> rfl

/-! ### Requests -/

/-- The token and the URI of the node that a request names. -/
def addressed (request : HttpRequest) : Option (String × Uri) :=
  match nodeParams request.headers with
  | .ok params =>
    ((XrayClientCache.endpoint params.domain params.port).map (params.token, ·)).toOption
  | .error _ => none

theorem nodeContext_ok_seen (laws : LruLaws) {n : ℕ+} {cache : XrayClientCache}
    (hcache : Reachable n cache) {request : HttpRequest} {client : XrayClient}
    (h : (nodeContext request.headers cache).1 = .ok client) :
    addressed request = some client.seen := by
  unfold addressed
  cases hparams : nodeParams request.headers with
  | error e =>
    rw [nodeContext_of_error hparams] at h
    cases h
  | ok params =>
    dsimp only
    rw [← nodeContext_seen laws hcache hparams, h]
    rfl

theorem exists_client_of_addressed (laws : LruLaws) {n : ℕ+} {cache : XrayClientCache}
    (hcache : Reachable n cache) {request : HttpRequest} {seen : String × Uri}
    (h : addressed request = some seen) :
    ∃ client, (nodeContext request.headers cache).1 = .ok client ∧ client.seen = seen := by
  cases hclient : (nodeContext request.headers cache).1 with
  | ok client =>
    rw [nodeContext_ok_seen laws hcache hclient] at h
    exact ⟨client, rfl, Option.some.inj h⟩
  | error e =>
    unfold addressed at h
    cases hparams : nodeParams request.headers with
    | error e' =>
      rw [hparams] at h
      cases h
    | ok params =>
      have hseen := nodeContext_seen laws hcache hparams
      rw [hclient] at hseen
      rw [hparams] at h
      dsimp only at h
      rw [← hseen] at h
      cases h

/-- The answers that need no call: those of the router, of the health check and of extractors. -/
inductive Refusal (request : HttpRequest) : Response → Prop where
  | router {response : Response}
      (dispatch : dispatch request.method request.path = .error response) : Refusal request response
  | healthz {captures : PathTemplate.Captures}
      (dispatch : dispatch request.method request.path = .ok (.healthz, captures)) :
      Refusal request (answerTo request (okJson (.obj [("ok", .bool true)])))
  | abort (abort : Abort) : Refusal request (answerTo request (abort.intoResponse request))

theorem plain_intoResponse (e : AppError) : e.intoResponse.Plain := by
  obtain ⟨code, error, hbody⟩ := e.body_eq
  intro document h
  rw [hbody] at h
  cases h
  exact ⟨_, rfl, by simp⟩

theorem Refusal.plain (laws : RejectionLaws) {request : HttpRequest} {response : Response}
    (h : Refusal request response) : response.Plain := by
  cases h with
  | router dispatch =>
    unfold XrayBridge.dispatch at dispatch
    split at dispatch
    · cases dispatch
      exact fun document hbody => nomatch hbody
    · split at dispatch
      · cases dispatch
      · cases dispatch
        exact fun document hbody => nomatch hbody
  | healthz dispatch => exact plain_answerTo (plain_of_json (by simp))
  | abort abort =>
    refine plain_answerTo ?_
    cases abort with
    | app e => exact plain_intoResponse e
    | axum rejection =>
      obtain ⟨message, hbody⟩ := laws.text request rejection
      intro document h
      rw [Abort.intoResponse, hbody] at h
      cases h
    | panic => exact fun document hbody => nomatch hbody

/-- What the program does for a request is the same on every reachable cache, but for the client: it
refuses the request, or it does what it has planned with a client for the node that the request
names. -/
inductive Served (settings : Settings) (request : HttpRequest) : Prop where
  | refused {response : Response} (refusal : Refusal request response)
      (all : ∀ n cache, Reachable n cache → (handle settings request cache).1 = .done response)
  | planned {e : Endpoint} {captures : PathTemplate.Captures} {params : e.handler.Params}
      {body : e.handler.Body}
      (dispatch : dispatch request.method request.path = .ok (.endpoint e, captures))
      (reads : e.handler.params ⟨request, captures⟩ = .ok params)
      (auth : bearerAuth settings request.headers = .ok ())
      (readsBody : e.handler.body ⟨request, captures⟩ = .ok body)
      (all : ∀ n cache, Reachable n cache →
        ∃ client, (nodeContext request.headers cache).1 = .ok client ∧
          (handle settings request cache).1 =
            ((e.plan params body).map (answerTo request)).task client)

theorem handle_eq {request : HttpRequest} {e : Endpoint} {captures : PathTemplate.Captures}
    (hdispatch : dispatch request.method request.path = .ok (.endpoint e, captures))
    (settings : Settings) (cache : XrayClientCache) :
    (handle settings request cache).1 =
      (e.handler.serve settings ⟨request, captures⟩ cache).1 >>= fun response =>
        .done (answerTo request response) := by
  unfold handle
  rw [hdispatch]
  dsimp only [Service.serve]
  by_cases hhead : request.method = .head
  · rw [if_pos hhead]
    refine (map_eq_pure_bind _ _).trans (bind_congr fun response => ?_)
    rw [answerTo, if_pos hhead]
    rfl
  · rw [if_neg hhead]
    refine (bind_pure _).symm.trans (bind_congr fun response => ?_)
    rw [answerTo, if_neg hhead]
    rfl

/-- Whether a request has a client depends on its headers alone. -/
theorem nodeContext_cases (laws : LruLaws) (headers : Headers) :
    (∃ e, ∀ (n : ℕ+) cache, Reachable n cache → (nodeContext headers cache).1 = .error e) ∨
    ∀ (n : ℕ+) cache, Reachable n cache →
      ∃ client, (nodeContext headers cache).1 = .ok client := by
  cases hparams : nodeParams headers with
  | error e =>
    refine Or.inl ⟨e, fun n cache _ => ?_⟩
    rw [nodeContext_of_error hparams]
  | ok params =>
    cases hend : XrayClientCache.endpoint params.domain params.port with
    | error e =>
      refine Or.inl ⟨e, fun n cache hcache => ?_⟩
      have hseen := nodeContext_seen laws hcache hparams
      rw [hend] at hseen
      cases hresult : (nodeContext headers cache).1 with
      | error e' =>
        rw [hresult] at hseen
        cases hseen
        rfl
      | ok client =>
        rw [hresult] at hseen
        cases hseen
    | ok uri =>
      refine Or.inr fun n cache hcache => ?_
      have hseen := nodeContext_seen laws hcache hparams
      rw [hend] at hseen
      cases hresult : (nodeContext headers cache).1 with
      | error e' =>
        rw [hresult] at hseen
        cases hseen
      | ok client => exact ⟨client, rfl⟩

/-- A request that has a client and its arguments has its plan. -/
theorem handle_of_arguments {settings : Settings} {request : HttpRequest} {cache : XrayClientCache}
    {e : Endpoint} {captures : PathTemplate.Captures} {client : XrayClient}
    {params : e.handler.Params} {body : e.handler.Body}
    (hdispatch : dispatch request.method request.path = .ok (.endpoint e, captures))
    (hclient : (nodeContext request.headers cache).1 = .ok client)
    (hparams : e.handler.params ⟨request, captures⟩ = .ok params)
    (hauth : bearerAuth settings request.headers = .ok ())
    (hbody : e.handler.body ⟨request, captures⟩ = .ok body) :
    (handle settings request cache).1 =
      ((e.plan params body).map (answerTo request)).task client := by
  rw [handle_eq hdispatch, serve_fst, extract_of_ok hclient, hparams, hauth, hbody, Plan.task_map,
    ← toResponse_run]
  rfl

theorem served_endpoint (laws : LruLaws) (settings : Settings) {request : HttpRequest}
    {e : Endpoint} {captures : PathTemplate.Captures}
    (hdispatch : dispatch request.method request.path = .ok (.endpoint e, captures)) :
    Served settings request := by
  have hrefused (abort : Abort)
      (h : ∀ (n : ℕ+) cache, Reachable n cache →
        (e.handler.extract settings ⟨request, captures⟩ cache).1 = .error abort) :
      Served settings request := by
    refine .refused (.abort abort) fun n cache hcache => ?_
    rw [handle_eq hdispatch, serve_fst, h n cache hcache]
    rfl
  rcases nodeContext_cases laws request.headers with ⟨error, hnode⟩ | hnode
  · exact hrefused _ fun n cache hcache => extract_of_error (hnode n cache hcache)
  -- The other extractors do not look at the cache.
  have hrest {abort : Abort}
      (h : ∀ client, (do
        let params ← e.handler.params ⟨request, captures⟩
        bearerAuth settings request.headers
        let body ← e.handler.body ⟨request, captures⟩
        return e.handler.run client params body : Except Abort (Call Response)) = .error abort) :
      Served settings request := by
    refine hrefused abort fun n cache hcache => ?_
    obtain ⟨client, hclient⟩ := hnode n cache hcache
    exact (extract_of_ok hclient).trans (h client)
  cases hparams : e.handler.params ⟨request, captures⟩ with
  | error abort => exact hrest fun client => by rw [hparams]; rfl
  | ok params =>
    cases hauth : bearerAuth settings request.headers with
    | error abort => exact hrest fun client => by rw [hparams, hauth]; rfl
    | ok _ =>
      cases hbody : e.handler.body ⟨request, captures⟩ with
      | error abort => exact hrest fun client => by rw [hparams, hauth, hbody]; rfl
      | ok body =>
        refine .planned hdispatch hparams hauth hbody fun n cache hcache => ?_
        obtain ⟨client, hclient⟩ := hnode n cache hcache
        exact ⟨client, hclient, handle_of_arguments hdispatch hclient hparams hauth hbody⟩

/-- Every request is refused or has its plan. -/
theorem served (laws : LruLaws) (settings : Settings) (request : HttpRequest) :
    Served settings request := by
  match hdispatch : dispatch request.method request.path with
  | .error response =>
    refine .refused (.router hdispatch) fun n cache _ => ?_
    unfold handle
    rw [hdispatch]
    rfl
  | .ok (.healthz, captures) =>
    refine .refused (.healthz hdispatch) fun n cache _ => ?_
    unfold handle answerTo
    rw [hdispatch]
    dsimp only [Service.serve]
    split <;> rfl
  | .ok (.endpoint e, captures) => exact served_endpoint laws settings hdispatch

end

end XrayBridge
