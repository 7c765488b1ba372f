import XrayBridge.Proof.Calls
import XrayBridge.Proof.Dispatch
import XrayBridge.Proof.Requests
import XrayBridge.Server

/-! The gRPC requests of the running program: each of them is sent for one HTTP request that passed
both checks of its headers, and no other one is sent for it. -/

namespace XrayBridge

open Platform Dialogue

theorem getElem?_append_singleton {α : Type} {l : List α} {a b : α} {i : Nat}
    (h : (l ++ [a])[i]? = some b) : l[i]? = some b ∨ (i = l.length ∧ b = a) := by
  rcases Nat.lt_or_ge i l.length with hlt | hge
  · rw [List.getElem?_append_left hlt] at h
    exact Or.inl h
  · rw [List.getElem?_append_right hge, List.getElem?_singleton] at h
    split at h
    · cases h
      exact Or.inr ⟨by omega, rfl⟩
    · cases h

/-- The same for two lists of one length that grow together. -/
theorem getElem?_append_pair {α β : Type} {as : List α} {bs : List β} {a x : α} {b y : β} {i : Nat}
    (hlength : bs.length = as.length) (ha : (as ++ [a])[i]? = some x)
    (hb : (bs ++ [b])[i]? = some y) :
    (as[i]? = some x ∧ bs[i]? = some y) ∨ (i = as.length ∧ x = a ∧ y = b) := by
  rcases getElem?_append_singleton ha with ha | ⟨hi, rfl⟩
  · have hlt := (List.getElem?_eq_some_iff.mp ha).1
    rcases getElem?_append_singleton hb with hb | ⟨hi, -⟩
    · exact Or.inl ⟨ha, hb⟩
    · omega
  · rcases getElem?_append_singleton hb with hb | ⟨-, rfl⟩
    · have hlt := (List.getElem?_eq_some_iff.mp hb).1
      omega
    · exact Or.inr ⟨hi, rfl, rfl⟩

section

variable [Platform]

/-- A request to an endpoint that `NodeContext` and `BearerAuth` accept, with its client. -/
structure Accepted (settings : Settings) (a : Arrival) (client : XrayClient) : Prop where
  endpoint : hasEndpoint a.request = true
  node : (nodeContext a.request.headers a.cache).1 = .ok client
  auth : bearerAuth settings a.request.headers = .ok ()

/-- A request that may be sent for an arrival, if the effect is one. -/
def Permitted (settings : Settings) (a : Arrival) : Effect → Prop
  | .rpc r => ∃ client, Accepted settings a client ∧ r.channel = client.channel
  | .trace _ => True

theorem within_map {P : Effect → Prop} {cost : Effect → Nat} {n : Nat} {m : Grpc Response}
    (h : m.Within P cost n) (f : Response → Response) : (f <$> m).Within P cost n :=
  Within.bind (k := 0) h fun a => within_done (f a)

theorem within_serve {e : Endpoint} (settings : Settings) (parts : Parts) (cache : XrayClientCache)
    (hendpoint : hasEndpoint parts.request = true) :
    (e.handler.serve settings parts cache).1.Within (Permitted settings ⟨parts.request, cache⟩)
      Effect.cost 1 := by
  rw [serve_fst]
  have hspec := extract_spec e.handler settings parts cache
  generalize (e.handler.extract settings parts cache).1 = result at hspec ⊢
  cases hspec with
  | run node params auth body =>
    refine (within_toResponse (calls_run e _ _ _)).imp fun effect hsent => ?_
    cases effect with
    | trace event => trivial
    | rpc r => exact ⟨_, ⟨hendpoint, node, auth⟩, hsent.1⟩
  | _ => exact within_done _

theorem within_handle (settings : Settings) (request : HttpRequest) (cache : XrayClientCache) :
    (handle settings request cache).1.Within (Permitted settings ⟨request, cache⟩)
      Effect.cost 1 := by
  unfold handle
  match hdispatch : dispatch request.method request.path with
  | .error response => exact within_done _
  | .ok (.healthz, captures) =>
    dsimp only
    split
    · exact within_map (within_done _) _
    · exact within_done _
  | .ok (.endpoint e, captures) =>
    have hendpoint : hasEndpoint request = true := by rw [hasEndpoint, hdispatch]
    have h := within_serve (e := e) settings ⟨request, captures⟩ cache hendpoint
    dsimp only
    split
    · exact within_map h _
    · exact h

def callsFor (i : Nat) (sent : List (Nat × GrpcRequest)) : Nat := sent.countP (·.1 = i)

theorem callsFor_append (i j : Nat) (e : Effect) (sent : List (Nat × GrpcRequest)) :
    callsFor j (e.calls.map (i, ·) ++ sent) =
      (if i = j then e.cost else 0) + callsFor j sent := by
  cases e with
  | trace event => simp [callsFor, Effect.calls, Effect.cost]
  | rpc r => by_cases h : i = j <;> simp [callsFor, Effect.calls, Effect.cost, h, Nat.add_comm]

structure Server.Invariant (settings : Settings) (s : Server) : Prop where
  tasks : s.tasks.length = s.arrivals.length
  sent : ∀ i r, (i, r) ∈ s.sent →
    ∃ a client, s.arrivals[i]? = some a ∧ Accepted settings a client ∧ r.channel = client.channel
  once : ∀ i, callsFor i s.sent ≤ 1
  remaining : ∀ i a (task : Grpc Response), s.arrivals[i]? = some a → s.tasks[i]? = some task →
    task.Within (Permitted settings a) Effect.cost (1 - callsFor i s.sent)

theorem Server.Invariant.start (settings : Settings) (cache : XrayClientCache) :
    Server.Invariant settings (.start ⟨settings, cache⟩) where
  tasks := rfl
  sent i r h := by cases h
  once i := by simp [Server.start, callsFor]
  remaining i a task h := by cases h

theorem Server.Invariant.callsFor_eq_zero {settings : Settings} {s : Server}
    (h : s.Invariant settings) {i : Nat} (hi : s.arrivals.length ≤ i) :
    callsFor i s.sent = 0 := by
  rw [callsFor, List.countP_eq_zero]
  rintro ⟨j, r⟩ hmem hj
  obtain ⟨a, client, ha, -⟩ := h.sent j r hmem
  have hj : j = i := by simpa using hj
  have := (List.getElem?_eq_some_iff.mp ha).1
  omega

theorem Server.Invariant.arrive {settings : Settings} {s : Server} (h : s.Invariant settings)
    (request : HttpRequest) :
    Server.Invariant settings { s with
      cache := (handle settings request s.cache).2
      arrivals := s.arrivals ++ [⟨request, s.cache⟩]
      tasks := s.tasks ++ [(handle settings request s.cache).1] } where
  tasks := by simp [h.tasks]
  sent i r hmem := by
    obtain ⟨a, client, ha, hrest⟩ := h.sent i r hmem
    refine ⟨a, client, ?_, hrest⟩
    rw [List.getElem?_append_left (List.getElem?_eq_some_iff.mp ha).1]
    exact ha
  once := h.once
  remaining i a task ha htask := by
    rcases getElem?_append_pair h.tasks ha htask with ⟨ha, htask⟩ | ⟨hi, rfl, rfl⟩
    · exact h.remaining i a task ha htask
    · have hnone := h.callsFor_eq_zero hi.ge
      refine (within_handle settings request s.cache).mono ?_
      dsimp only
      omega

theorem Server.Invariant.act {settings : Settings} {s : Server} (h : s.Invariant settings) {i : Nat}
    {e : Effect} {next : e.Answer → Grpc Response} (answer : e.Answer)
    (htask : s.tasks[i]? = some (.ask e next)) :
    Server.Invariant settings { s with
      tasks := s.tasks.set i (next answer)
      sent := e.calls.map (i, ·) ++ s.sent } := by
  have hi : i < s.arrivals.length := h.tasks ▸ (List.getElem?_eq_some_iff.mp htask).1
  obtain ⟨a, ha⟩ : ∃ a, s.arrivals[i]? = some a := ⟨_, List.getElem?_eq_getElem hi⟩
  -- The budget of the task pays for its effect.
  obtain ⟨hpermitted, hcost, hnext⟩ := h.remaining i a _ ha htask
  refine ⟨by simpa using h.tasks, ?_, ?_, ?_⟩
  · intro j r hmem
    rcases List.mem_append.mp hmem with hmem | hmem
    · obtain ⟨r', hr', heq⟩ := List.mem_map.mp hmem
      cases heq
      cases e with
      | trace event => cases hr'
      | rpc request =>
        cases List.mem_singleton.mp hr'
        obtain ⟨client, haccepted, hchannel⟩ := hpermitted
        exact ⟨a, client, ha, haccepted, hchannel⟩
    · exact h.sent j r hmem
  · intro j
    rw [callsFor_append]
    have := h.once j
    split
    · rename_i hij
      subst hij
      omega
    · omega
  · intro j a' task ha' htask'
    dsimp only at htask'
    rw [callsFor_append]
    by_cases hij : i = j
    · subst hij
      rw [ha] at ha'
      cases ha'
      rw [List.getElem?_set_self (by rw [h.tasks]; exact hi)] at htask'
      cases htask'
      exact (hnext answer).mono (by simp only [if_true]; omega)
    · rw [List.getElem?_set_ne hij] at htask'
      exact (h.remaining j a' task ha' htask').mono (by simp only [if_neg hij]; omega)

theorem Server.Run.invariant {settings : Settings} {n : ℕ+} {s : Server}
    (h : Server.Run settings n s) : s.Invariant settings := by
  induction h with
  | refl => exact .start settings _
  | tail _ hstep ih =>
    cases hstep with
    | arrive request => exact ih.arrive request
    | act i e next answer htask => exact ih.act answer htask

/-! ### What may happen -/

/-- Any requests may arrive, in any order. -/
theorem exists_arrivals (settings : Settings) (n : ℕ+) (requests : List HttpRequest) :
    ∃ s, Server.Run settings n s ∧ s.arrivals.map (·.request) = requests := by
  induction requests using List.reverseRecOn with
  | nil => exact ⟨_, .refl, rfl⟩
  | append_singleton requests request ih =>
    obtain ⟨s, hrun, rfl⟩ := ih
    exact ⟨_, hrun.tail (.arrive s request), List.map_append⟩

theorem Server.Run.exists_arrival {settings : Settings} {n : ℕ+} {s : Server}
    (h : Server.Run settings n s) (request : HttpRequest) :
    ∃ s', Server.Run settings n s' ∧ s'.arrivals = s.arrivals ++ [⟨request, s.cache⟩] ∧
      s'.cache = (handle settings request s.cache).2 ∧
      s'.tasks = s.tasks ++ [(handle settings request s.cache).1] ∧ s'.sent = s.sent :=
  ⟨_, h.tail (.arrive s request), rfl, rfl, rfl, rfl⟩

/-- A task may have its event and its call. -/
theorem Server.Run.exists_call {settings : Settings} {n : ℕ+} {s : Server}
    (h : Server.Run settings n s) {i : Nat} {event : TraceEvent} {r : GrpcRequest}
    {next : Except Status r.rpc.Reply → Grpc Response} (reply : Except Status r.rpc.Reply)
    (htask : s.tasks[i]? = some (.ask (.trace event) fun _ => .ask (.rpc r) next)) :
    ∃ s', Server.Run settings n s' ∧ s'.arrivals = s.arrivals ∧ s'.cache = s.cache ∧
      s'.tasks = s.tasks.set i (next reply) ∧ s'.sent = (i, r) :: s.sent := by
  have hi : i < s.tasks.length := (List.getElem?_eq_some_iff.mp htask).1
  have htrace := h.tail (.act s i (.trace event) _ () htask)
  have hcall := htrace.tail (.act _ i (.rpc r) next reply (List.getElem?_set_self hi))
  exact ⟨_, hcall, rfl, rfl, List.set_set .., rfl⟩

/-- A request may have its event and its call as soon as it has arrived. -/
theorem Server.Run.exists_arrival_call {settings : Settings} {n : ℕ+} {s : Server}
    (h : Server.Run settings n s) {request : HttpRequest} {event : TraceEvent} {r : GrpcRequest}
    {next : Except Status r.rpc.Reply → Grpc Response} (reply : Except Status r.rpc.Reply)
    (htask : (handle settings request s.cache).1 =
      .ask (.trace event) fun _ => .ask (.rpc r) next) :
    ∃ s', Server.Run settings n s' ∧ s'.arrivals = s.arrivals ++ [⟨request, s.cache⟩] ∧
      s'.sent = (s.arrivals.length, r) :: s.sent := by
  obtain ⟨s₁, hrun₁, harrivals₁, -, htasks₁, hsent₁⟩ := h.exists_arrival request
  have hlast : s₁.tasks[s.arrivals.length]? =
      some (.ask (.trace event) fun _ => .ask (.rpc r) next) := by
    rw [htasks₁, ← h.invariant.tasks, List.getElem?_concat_length, htask]
  obtain ⟨s₂, hrun₂, harrivals₂, -, -, hsent₂⟩ := hrun₁.exists_call reply hlast
  exact ⟨s₂, hrun₂, harrivals₂.trans harrivals₁, by rw [hsent₂, hsent₁]⟩

theorem Server.length_arrivals {s : Server} {requests : List HttpRequest}
    (h : s.arrivals.map (·.request) = requests) : s.arrivals.length = requests.length := by
  rw [← h, List.length_map]

/-- The cache is what the requests that have arrived have made of it. -/
theorem Server.Run.cache_eq {settings : Settings} {n : ℕ+} {s : Server}
    (h : Server.Run settings n s) :
    s.cache = serveAll settings (s.arrivals.map (·.request)) (.new n) := by
  induction h with
  | refl => rfl
  | tail _ hstep ih =>
    cases hstep with
    | arrive request =>
      rw [List.map_append, serveAll, List.foldl_append]
      exact congrArg (fun cache => (handle settings request cache).2) ih
    | act i e next answer htask => exact ih

theorem Server.Run.reachable {settings : Settings} {n : ℕ+} {s : Server}
    (h : Server.Run settings n s) : Reachable n s.cache := by
  rw [h.cache_eq]
  exact Reachable.new.serveAll settings _

/-! ### What is sent -/

/-- Every gRPC request is sent for one HTTP request that both `NodeContext` and `BearerAuth` have
accepted, at most one is sent for an HTTP request, and none for one that fails authentication. -/
theorem sent_for_accepted {settings : Settings} {n : ℕ+} {s : Server}
    (h : Server.Run settings n s) :
    (∀ i r, (i, r) ∈ s.sent → ∃ a client, s.arrivals[i]? = some a ∧
      Accepted settings a client ∧ r.channel = client.channel) ∧
    (∀ i, callsFor i s.sent ≤ 1) ∧
    ∀ i a, s.arrivals[i]? = some a → bearerAuth settings a.request.headers ≠ .ok () →
      callsFor i s.sent = 0 := by
  have hinv := h.invariant
  refine ⟨hinv.sent, hinv.once, fun i a ha hauth => ?_⟩
  rw [callsFor, List.countP_eq_zero]
  rintro ⟨j, r⟩ hmem hj
  obtain rfl : j = i := by simpa using hj
  obtain ⟨a', client, ha', haccepted, -⟩ := hinv.sent j r hmem
  rw [ha] at ha'
  cases ha'
  exact hauth haccepted.auth

end

open Reference

theorem handle_sysRequest {domain : String} {cache : XrayClientCache} {client : XrayClient}
    (h : (nodeContext (sysRequest "secret" domain).headers cache).1 = .ok client) :
    (handle ⟨"secret", 8080⟩ (sysRequest "secret" domain) cache).1 =
      toResponse (getSysStatsHandler.run client () ()) := by
  have hget : (sysRequest "secret" domain).method ≠ .head := nofun
  have hextract : (Endpoint.getSysStats.handler.extract ⟨"secret", 8080⟩
      ⟨sysRequest "secret" domain, []⟩ cache).1 = _ := extract_of_ok h
  rw [handle_fst (dispatch_sysRequest _ _) hget, serve_fst, hextract]
  rfl

/-- Requests for nodes, each with its call. -/
theorem exists_sysCalls (n : ℕ+) (domains : List String)
    (hadmitted : ∀ domain ∈ domains, admitted (sysRequest "secret" domain).headers = true) :
    ∃ s : Server, s.Run ⟨"secret", 8080⟩ n ∧
      s.arrivals.map (·.request) = domains.map (sysRequest "secret") ∧
      s.sent.length = domains.length := by
  induction domains using List.reverseRecOn with
  | nil => exact ⟨_, .refl, rfl, rfl⟩
  | append_singleton domains domain ih =>
    obtain ⟨s, hrun, harrivals, hsent⟩ := ih fun other hmem => hadmitted other (by simp [hmem])
    have hok := nodeContext_isOk lruLaws hrun.reachable (sysRequest "secret" domain).headers
    rw [hadmitted domain (by simp)] at hok
    cases hclient : (nodeContext (sysRequest "secret" domain).headers s.cache).1 with
    | error e =>
      rw [hclient] at hok
      cases hok
    | ok client =>
      let reply : Except Status SysStatsResponse := .ok {}
      obtain ⟨s', hrun', harrivals', hsent'⟩ :=
        hrun.exists_arrival_call (r := client.request .getSysStats) reply
          (handle_sysRequest hclient)
      refine ⟨s', hrun', ?_, by simp [hsent', hsent]⟩
      rw [harrivals', List.map_append, harrivals, List.map_append]
      rfl

/-- Two calls, and a request with a wrong token. -/
theorem sent_for_accepted_sys :
    ∃ s : Server, s.Run ⟨"secret", 8080⟩ 1 ∧ s.sent.length = 2 ∧
      (∀ i r, (i, r) ∈ s.sent → ∃ a client, s.arrivals[i]? = some a ∧
        Accepted ⟨"secret", 8080⟩ a client ∧ r.channel = client.channel) ∧
      s.arrivals[2]?.map (·.request) = some (sysRequest "wrong" "a.example") ∧
      callsFor 2 s.sent = 0 := by
  obtain ⟨s, hrun, harrivals, hsent⟩ := exists_sysCalls 1 ["a.example", "b.example"] (by decide)
  obtain ⟨s', hrun', harrivals', -, -, hsent'⟩ :=
    hrun.exists_arrival (sysRequest "wrong" "a.example")
  have hlength : s.arrivals.length = 2 := Server.length_arrivals harrivals
  have hlast : s'.arrivals[2]? = some ⟨sysRequest "wrong" "a.example", s.cache⟩ := by
    rw [harrivals', ← hlength, List.getElem?_concat_length]
  have hauth : bearerAuth ⟨"secret", 8080⟩ (sysRequest "wrong" "a.example").headers ≠ .ok () := by
    intro h
    have hrefused : (bearerAuth ⟨"secret", 8080⟩ (sysRequest "wrong" "a.example").headers).isOk =
        false := by
      decide
    rw [h] at hrefused
    cases hrefused
  obtain ⟨haccepted, -, hsilent⟩ := sent_for_accepted hrun'
  exact ⟨s', hrun', by rw [hsent', hsent]; rfl, haccepted, by rw [hlast]; rfl,
    hsilent 2 _ hlast hauth⟩

end XrayBridge
