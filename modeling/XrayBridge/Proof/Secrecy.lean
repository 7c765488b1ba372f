import XrayBridge.Proof.CacheLog
import XrayBridge.Proof.Simulation

/-! The tokens are kept to where they belong: with other tokens for the nodes and for the program
itself, a run has the same answers and the same log of its cache, and its calls differ in nothing but
the token that they carry. -/

namespace XrayBridge

open Platform Recency XrayClientCache

/-- Other tokens for those of the nodes, different ones for different ones. -/
structure Renaming where
  token : String → String
  injective : Function.Injective token

namespace Renaming

def params (ρ : Renaming) (params : NodeParams) : NodeParams :=
  { params with token := ρ.token params.token }

def key (ρ : Renaming) (key : Key) : Key := (key.1, key.2.1, ρ.token key.2.2)

theorem key_injective (ρ : Renaming) : Function.Injective ρ.key := by
  rintro ⟨domain, port, token⟩ ⟨domain', port', token'⟩ h
  simp only [key, Prod.mk.injEq] at h
  rw [h.1, h.2.1, ρ.injective h.2.2]

end Renaming

section

variable [Platform] {ρ : Renaming}

namespace Renaming

def call (ρ : Renaming) (call : CacheCall) : CacheCall := { call with token := ρ.token call.token }

def client (ρ : Renaming) (client : XrayClient) : XrayClient :=
  { client with token := ρ.token client.token }

end Renaming

/-! ### Caches -/

/-- Two caches that differ only in the tokens. -/
structure CacheAlike (ρ : Renaming) (a b : XrayClientCache) : Prop where
  entries : b.entries = a.entries.map (Prod.map ρ.key ρ.client)
  capacity : b.capacity = a.capacity
  connects : b.connects = a.connects
  events : b.events = a.events

theorem CacheAlike.new (laws : LruLaws) (n : ℕ+) : CacheAlike ρ (.new n) (.new n) := by
  have hempty : (XrayClientCache.new n).entries = [] := laws.iter_new n
  refine ⟨?_, rfl, rfl, rfl⟩
  rw [hempty]
  rfl

theorem CacheAlike.emit {a b : XrayClientCache} (h : CacheAlike ρ a b) (event : TraceEvent) :
    CacheAlike ρ (a.emit event) (b.emit event) :=
  ⟨h.entries, h.capacity, h.connects, congrArg (· ++ [event]) h.events⟩

theorem CacheAlike.evictions {a b : XrayClientCache} (h : CacheAlike ρ a b) :
    b.evictions = a.evictions := by
  rw [XrayClientCache.evictions, XrayClientCache.evictions, h.entries, h.capacity,
    List.length_map, List.getLast?_map]
  cases a.entries.getLast? <;> rfl

theorem CacheAlike.lookup {a b : XrayClientCache} (h : CacheAlike ρ a b) (call : CacheCall) :
    lookup (ρ.call call).key b.entries = (Recency.lookup call.key a.entries).map ρ.client := by
  rw [h.entries]
  exact lookup_map ρ.key_injective ρ.client call.key a.entries

theorem CacheAlike.run_events (laws : LruLaws) {a b : XrayClientCache} (h : CacheAlike ρ a b)
    (call : CacheCall) : ((ρ.call call).run b).2.events = (call.run a).2.events := by
  have hmem : (ρ.call call).key ∈ keys b.entries ↔ call.key ∈ keys a.entries := by
    rw [← lookup_isSome_iff, ← lookup_isSome_iff, h.lookup, Option.isSome_map]
  have hmiss : (ρ.call call).missEvents b = call.missEvents a := by
    rw [CacheCall.missEvents, CacheCall.missEvents, h.evictions, h.capacity, h.entries,
      List.length_map]
    rfl
  rw [XrayBridge.run_events laws, XrayBridge.run_events laws, h.events, hmiss]
  by_cases hkey : call.key ∈ keys a.entries
  · rw [if_pos hkey, if_pos (hmem.mpr hkey)]
  · rw [if_neg hkey, if_neg fun hb => hkey (hmem.mp hb)]

/-- A call with another token does the same to a cache with other tokens. -/
theorem CacheAlike.run (laws : LruLaws) {a b : XrayClientCache} (h : CacheAlike ρ a b)
    (call : CacheCall) :
    ((ρ.call call).run b).1 = (call.run a).1.map ρ.client ∧
      CacheAlike ρ (call.run a).2 ((ρ.call call).run b).2 := by
  have hevents := h.run_events laws call
  have hlookup := h.lookup call
  rcases ha : call.run a with ⟨result, after⟩
  rcases hb : (ρ.call call).run b with ⟨result', after'⟩
  rw [ha, hb] at hevents
  have hspec := CacheCall.spec laws ha
  cases CacheCall.spec laws hb with
  | hit found entries capacity connects =>
    rw [hlookup] at found
    obtain ⟨client, hclient, rfl⟩ := Option.map_eq_some_iff.mp found
    cases hspec with
    | hit found' entries' capacity' connects' =>
      rw [hclient] at found'
      cases found'
      refine ⟨rfl, ⟨?_, by rw [capacity, capacity', h.capacity],
        by rw [connects, connects', h.connects], hevents⟩⟩
      rw [entries, entries', h.entries]
      exact promote_map ρ.key_injective ρ.client call.key a.entries
    | failed missing | built missing => rw [hclient] at missing; cases missing
  | failed missing refused entries capacity connects =>
    rw [hlookup, Option.map_eq_none_iff] at missing
    cases hspec with
    | hit found => rw [missing] at found; cases found
    | failed missing' refused' entries' capacity' connects' =>
      cases refused.symm.trans refused'
      exact ⟨rfl, ⟨by rw [entries, entries', h.entries], by rw [capacity, capacity', h.capacity],
        by rw [connects, connects', h.connects], hevents⟩⟩
    | built missing' accepted => cases refused.symm.trans accepted
  | @built uri _ missing accepted entries capacity connects =>
    rw [hlookup, Option.map_eq_none_iff] at missing
    cases hspec with
    | hit found => rw [missing] at found; cases found
    | failed missing' refused => cases accepted.symm.trans refused
    | built missing' accepted' entries' capacity' connects' =>
      cases accepted.symm.trans accepted'
      rw [h.connects] at entries ⊢
      refine ⟨rfl, ⟨?_, by rw [capacity, capacity', h.capacity],
        by rw [connects, connects', h.connects], hevents⟩⟩
      rw [entries, entries', h.entries, h.capacity]
      exact insert_map ρ.key_injective ρ.client a.capacity call.key (call.client uri a.connects)
        a.entries

theorem CacheAlike.nodeContext (laws : LruLaws) {a b : XrayClientCache} (h : CacheAlike ρ a b)
    {headers headers' : Headers}
    (hparams : nodeParams headers' = (nodeParams headers).map ρ.params) :
    (nodeContext headers' b).1 = (nodeContext headers a).1.map ρ.client ∧
      CacheAlike ρ (nodeContext headers a).2 (nodeContext headers' b).2 := by
  cases hheaders : nodeParams headers with
  | error e =>
    rw [hheaders] at hparams
    rw [nodeContext_of_error hheaders, nodeContext_of_error hparams]
    exact ⟨rfl, h⟩
  | ok params =>
    rw [hheaders] at hparams
    rw [nodeContext_of_ok hheaders, nodeContext_of_ok hparams]
    exact (h.emit _).run laws params.call

/-! ### Requests -/

/-- Two requests that differ only in the tokens: both name the same node, with its token and the
other one, and either both have the token of the program, each its own, or neither has. -/
structure Alike (ρ : Renaming) (settings settings' : Settings) (request request' : HttpRequest) :
    Prop where
  method : request'.method = request.method
  path : request'.path = request.path
  query : request'.query = request.query
  node : nodeParams request'.headers = (nodeParams request.headers).map ρ.params
  auth : bearerAuth settings' request'.headers = bearerAuth settings request.headers
  body : jsonBody request'.headers request'.body = jsonBody request.headers request.body
  rejection : ∀ r, rejectionResponse request' r = rejectionResponse request r

variable {settings settings' : Settings} {request request' : HttpRequest}

theorem query_congr {T : Type} (deserialize : List (String × String) → Option T)
    (h : request'.query = request.query) (captures : PathTemplate.Captures) :
    query deserialize ⟨request', captures⟩ = query deserialize ⟨request, captures⟩ := by
  rw [query, query, h]

theorem json_congr {T : Type} (names : List String) (deserialize : Json → Option T)
    (h : jsonBody request'.headers request'.body = jsonBody request.headers request.body)
    (captures : PathTemplate.Captures) :
    json names deserialize ⟨request', captures⟩ = json names deserialize ⟨request, captures⟩ := by
  rw [json, json, h]

theorem path_query_congr {T : Type} (deserialize : List (String × String) → Option T)
    (h : request'.query = request.query) (captures : PathTemplate.Captures) :
    (do return (← path ⟨request', captures⟩, ← query deserialize ⟨request', captures⟩) :
        Except Abort (String × T)) =
      do return (← path ⟨request, captures⟩, ← query deserialize ⟨request, captures⟩) := by
  rw [query_congr deserialize h]
  rfl

theorem params_congr (e : Endpoint) (h : request'.query = request.query)
    (captures : PathTemplate.Captures) :
    e.handler.params ⟨request', captures⟩ = e.handler.params ⟨request, captures⟩ := by
  cases e with
  | getUsersStats | queryStats => exact query_congr _ h captures
  | getStat | removeUser => exact path_query_congr _ h captures
  | _ => rfl

theorem body_congr (e : Endpoint)
    (h : jsonBody request'.headers request'.body = jsonBody request.headers request.body)
    (captures : PathTemplate.Captures) :
    e.handler.body ⟨request', captures⟩ = e.handler.body ⟨request, captures⟩ := by
  cases e with
  | addUser | addInbound | addOutbound | testRoute | overrideBalancer =>
    exact json_congr _ _ h captures
  | _ => rfl

theorem Alike.answerTo (h : Alike ρ settings settings' request request') (response : Response) :
    answerTo request' response = answerTo request response := by
  rw [XrayBridge.answerTo, XrayBridge.answerTo, h.method]

theorem Alike.abort (h : Alike ρ settings settings' request request') (abort : Abort) :
    abort.intoResponse request' = abort.intoResponse request := by
  cases abort with
  | axum r => exact h.rejection r
  | app e | panic => rfl

theorem Alike.hasEndpoint (h : Alike ρ settings settings' request request') :
    hasEndpoint request' = hasEndpoint request := by
  rw [XrayBridge.hasEndpoint, XrayBridge.hasEndpoint, h.method, h.path]

/-- What a handler is given for two such requests: the same rejection, or the same arguments and
clients that differ in the token. -/
theorem Alike.extract (h : Alike ρ settings settings' request request') (e : Endpoint)
    (captures : PathTemplate.Captures) {a b : XrayClientCache}
    (hnode : (nodeContext request'.headers b).1 =
      (nodeContext request.headers a).1.map ρ.client) :
    (∃ abort, (e.handler.extract settings ⟨request, captures⟩ a).1 = .error abort ∧
      (e.handler.extract settings' ⟨request', captures⟩ b).1 = .error abort) ∨
    ∃ client params body,
      (e.handler.extract settings ⟨request, captures⟩ a).1 =
        .ok (e.handler.run client params body) ∧
      (e.handler.extract settings' ⟨request', captures⟩ b).1 =
        .ok (e.handler.run (ρ.client client) params body) := by
  cases hclient : (nodeContext request.headers a).1 with
  | error error =>
    rw [hclient] at hnode
    exact Or.inl ⟨_, extract_of_error hclient, extract_of_error hnode⟩
  | ok client =>
    rw [hclient] at hnode
    have hparams := params_congr e h.query captures
    have hbody := body_congr e h.body captures
    rw [extract_of_ok hclient, extract_of_ok hnode, hparams, h.auth, hbody]
    cases e.handler.params ⟨request, captures⟩ with
    | error abort => exact Or.inl ⟨abort, rfl, rfl⟩
    | ok params =>
      cases bearerAuth settings request.headers with
      | error abort => exact Or.inl ⟨abort, rfl, rfl⟩
      | ok _ =>
        cases e.handler.body ⟨request, captures⟩ with
        | error abort => exact Or.inl ⟨abort, rfl, rfl⟩
        | ok body => exact Or.inr ⟨client, params, body, rfl, rfl⟩

theorem Alike.handle (laws : LruLaws) (h : Alike ρ settings settings' request request')
    {a b : XrayClientCache} (hcache : CacheAlike ρ a b) :
    Matched (ρ.client · = ·) (handle settings request a).1 (handle settings' request' b).1 ∧
      CacheAlike ρ (handle settings request a).2 (handle settings' request' b).2 := by
  obtain ⟨hnode, hcache'⟩ := hcache.nodeContext laws h.node
  constructor
  · have hdispatch' : dispatch request'.method request'.path =
        dispatch request.method request.path := by rw [h.method, h.path]
    cases hdispatch : dispatch request.method request.path with
    | error response =>
      unfold XrayBridge.handle
      rw [hdispatch', hdispatch]
      exact .done response
    | ok found =>
      obtain ⟨service, captures⟩ := found
      cases service with
      | healthz =>
        unfold XrayBridge.handle
        rw [hdispatch', hdispatch, h.method]
        dsimp only [Service.serve]
        split <;> exact .done _
      | endpoint e =>
        rw [handle_eq hdispatch, handle_eq (hdispatch'.trans hdispatch), serve_fst, serve_fst]
        rcases h.extract e captures hnode with ⟨abort, ha, hb⟩ | ⟨client, params, body, ha, hb⟩
        · rw [ha, hb]
          dsimp only
          rw [h.abort]
          show Matched _ (.done (XrayBridge.answerTo request _))
            (.done (XrayBridge.answerTo request' _))
          rw [h.answerTo]
          exact .done _
        · rw [ha, hb]
          dsimp only
          rw [toResponse_run, toResponse_run, funext h.answerTo, ← Plan.task_map,
            ← Plan.task_map]
          exact Plan.matched _ rfl
  · rw [handle_snd, handle_snd, h.hasEndpoint]
    split
    · exact hcache'
    · exact hcache

/-! ### Runs -/

/-- Two calls for one request that differ only in the token. -/
inductive SentAlike (ρ : Renaming) : Nat × GrpcRequest → Nat × GrpcRequest → Prop where
  | mk (i : Nat) (client : XrayClient) (message : Rpc) :
      SentAlike ρ (i, client.request message) (i, (ρ.client client).request message)

theorem simulation_alike (laws : LruLaws) (ρ : Renaming) (settings settings' : Settings) :
    Simulation settings settings' (Alike ρ settings settings') (CacheAlike ρ) (ρ.client · = ·) where
  task hrequest hcache := (hrequest.handle laws hcache).1
  cache hrequest hcache := (hrequest.handle laws hcache).2

/-- The tokens show in nothing but the calls: where requests arrive that differ only in the tokens,
the program may give the same answers and log the same of its cache, and what it sends to the nodes
differs only in the tokens. -/
theorem tokens_hidden (laws : LruLaws) (ρ : Renaming) {n : ℕ+} {s : Server}
    (h : Server.Run settings n s) {requests' : List HttpRequest}
    (halike : List.Forall₂ (Alike ρ settings settings') (s.arrivals.map (·.request)) requests') :
    ∃ s' : Server, s'.Run settings' n ∧ s'.arrivals.map (·.request) = requests' ∧
      s'.cache.events = s.cache.events ∧
      (∀ (i : Nat) (response : Response), s'.tasks[i]? = some (.done response) ↔
        s.tasks[i]? = some (.done response)) ∧
      List.Forall₂ (SentAlike ρ) s.sent s'.sent := by
  obtain ⟨s', hrun, harrivals, hmatched⟩ :=
    h.simulated (simulation_alike laws ρ settings settings') (.new laws n) halike
  refine ⟨s', hrun, harrivals, hmatched.cache.events, hmatched.answered_iff,
    hmatched.sent.imp ?_⟩
  rintro _ _ ⟨i, rfl, message⟩
  exact .mk i _ message

end

open Reference

def longer : Renaming where
  token t := "x" ++ t
  injective t t' h := by simpa using h

/-- The request of `sysRequest "secret" "a.example"` with other tokens. -/
def otherRequest : HttpRequest :=
  { sysRequest "hidden" "a.example" with
    headers := [("authorization", utf8 "Bearer hidden"), ("x-node-domain", utf8 "a.example"),
      ("x-node-token", utf8 "xt")] }

theorem jsonBody_of_get {headers : Headers} (h : headers.get "content-type" = none) (body : Bytes) :
    Platform.jsonBody headers body = .error .missingJsonContentType := by
  show Reference.jsonBody headers body = _
  rw [Reference.jsonBody, h]
  exact if_pos (by simp)

theorem alike_otherRequest :
    Alike longer ⟨"secret", 8080⟩ ⟨"hidden", 8080⟩ (sysRequest "secret" "a.example")
      otherRequest where
  method := rfl
  path := rfl
  query := rfl
  node := by decide +kernel
  auth := by
    have hother : bearerAuth ⟨"hidden", 8080⟩ otherRequest.headers = .ok () := rfl
    have happend : "Bearer " ++ "secret" = "Bearer secret" := by decide
    have hfirst : bearerAuth ⟨"secret", 8080⟩ (sysRequest "secret" "a.example").headers =
        .ok () := by
      rw [sysRequest, happend]
      rfl
    exact hother.trans hfirst.symm
  body := by rw [jsonBody_of_get (by decide +kernel), jsonBody_of_get (by decide +kernel)]
  rejection _ := rfl

/-- Two calls with one token and two calls with another one. -/
theorem tokens_hidden_sys :
    ∃ s s' : Server, s.Run ⟨"secret", 8080⟩ 1 ∧ s'.Run ⟨"hidden", 8080⟩ 1 ∧ s.sent.length = 2 ∧
      s'.arrivals.map (·.request) = [otherRequest, otherRequest] ∧
      s'.cache.events = s.cache.events ∧
      List.Forall₂ (SentAlike longer) s.sent s'.sent := by
  obtain ⟨s, hrun, harrivals, hsent⟩ := exists_sysCalls 1 ["a.example", "a.example"] (by decide)
  have halike : List.Forall₂ (Alike longer ⟨"secret", 8080⟩ ⟨"hidden", 8080⟩)
      (s.arrivals.map (·.request)) [otherRequest, otherRequest] := by
    rw [harrivals]
    exact .cons alike_otherRequest (.cons alike_otherRequest .nil)
  obtain ⟨s', hrun', harrivals', hevents, -, hsent'⟩ := tokens_hidden lruLaws longer hrun halike
  exact ⟨s, s', hrun, hrun', hsent, harrivals', hevents, hsent'⟩

end XrayBridge
