import Mathlib.Data.List.Forall2
import XrayBridge.Proof.Channels
import XrayBridge.Proof.Plans

/-! Two programs side by side: where they do the same for each request, but for their clients and
their events, each run of one is matched step by step by a run of the other.  So it is with two
programs whose caches differ in capacity. -/

namespace XrayBridge

open Platform

/-! ### Lists that agree -/

section Lists

variable {A B : Type} {R : A → B → Prop} {l : List A} {l' : List B}

theorem forall₂_concat_left {a : A} (h : List.Forall₂ R (l ++ [a]) l') :
    ∃ m b, l' = m ++ [b] ∧ List.Forall₂ R l m ∧ R a b := by
  induction l generalizing l' with
  | nil =>
    obtain ⟨b, m, hab, hm, rfl⟩ := List.forall₂_cons_left_iff.mp h
    cases hm
    exact ⟨[], b, rfl, .nil, hab⟩
  | cons c l ih =>
    obtain ⟨d, m, hcd, hm, rfl⟩ := List.forall₂_cons_left_iff.mp h
    obtain ⟨m, b, rfl, hlm, hab⟩ := ih hm
    exact ⟨d :: m, b, rfl, .cons hcd hlm, hab⟩

theorem forall₂_getElem? (h : List.Forall₂ R l l') {i : Nat} {a : A} (ha : l[i]? = some a) :
    ∃ b, l'[i]? = some b ∧ R a b := by
  obtain ⟨hi, rfl⟩ := List.getElem?_eq_some_iff.mp ha
  have hi' : i < l'.length := h.length_eq ▸ hi
  exact ⟨l'[i], List.getElem?_eq_getElem hi', h.get hi hi'⟩

theorem forall₂_set (h : List.Forall₂ R l l') (i : Nat) {a : A} {b : B} (hab : R a b) :
    List.Forall₂ R (l.set i a) (l'.set i b) := by
  induction h generalizing i with
  | nil => exact .nil
  | cons hcd hrest ih =>
    cases i with
    | zero => exact .cons hab hrest
    | succ i => exact .cons hcd (ih i)

end Lists

section

variable [Platform]

/-! ### Tasks -/

/-- Two tasks that make the same calls, with clients that `R` relates, and answer the same to the
same replies. -/
inductive Matched (R : XrayClient → XrayClient → Prop) : Grpc Response → Grpc Response → Prop where
  | done (response : Response) : Matched R (.done response) (.done response)
  | trace (event event' : TraceEvent) {next next' : Unit → Grpc Response}
      (h : ∀ answer, Matched R (next answer) (next' answer)) :
      Matched R (.ask (.trace event) next) (.ask (.trace event') next')
  | rpc {client client' : XrayClient} (related : R client client') (message : Rpc)
      {next next' : Except Status message.Reply → Grpc Response}
      (h : ∀ reply, Matched R (next reply) (next' reply)) :
      Matched R (.ask (.rpc (client.request message)) next)
        (.ask (.rpc (client'.request message)) next')

/-- Two calls for one request, with the same message and clients that `R` relates. -/
inductive SentMatched (R : XrayClient → XrayClient → Prop) :
    Nat × GrpcRequest → Nat × GrpcRequest → Prop where
  | mk (i : Nat) {client client' : XrayClient} (related : R client client') (message : Rpc) :
      SentMatched R (i, client.request message) (i, client'.request message)

variable {R : XrayClient → XrayClient → Prop}

theorem Matched.eq_done {task : Grpc Response} {response : Response}
    (h : Matched R task (.done response)) : task = .done response := by
  cases h
  rfl

/-- A plan does the same with either client. -/
theorem Plan.matched (plan : Plan) {client client' : XrayClient} (h : R client client') :
    Matched R (plan.task client) (plan.task client') := by
  match plan with
  | refuse none response => exact .done response
  | refuse (some event) response => exact .trace _ _ fun _ => .done response
  | call event message respond =>
    exact .trace _ _ fun _ => .rpc h message fun reply => .done (respond reply)

/-! ### Runs -/

/-- Two programs do the same for requests that `Q` relates, on caches that `C` relates. -/
structure Simulation (settings settings' : Settings) (Q : HttpRequest → HttpRequest → Prop)
    (C : XrayClientCache → XrayClientCache → Prop) (R : XrayClient → XrayClient → Prop) :
    Prop where
  task {request request' : HttpRequest} {a b : XrayClientCache} (hrequest : Q request request')
    (hcache : C a b) : Matched R (handle settings request a).1 (handle settings' request' b).1
  cache {request request' : HttpRequest} {a b : XrayClientCache} (hrequest : Q request request')
    (hcache : C a b) : C (handle settings request a).2 (handle settings' request' b).2

/-- Two states of the programs that correspond. -/
structure Server.Matched (C : XrayClientCache → XrayClientCache → Prop)
    (R : XrayClient → XrayClient → Prop) (s s' : Server) : Prop where
  cache : C s.cache s'.cache
  tasks : List.Forall₂ (XrayBridge.Matched R) s.tasks s'.tasks
  sent : List.Forall₂ (SentMatched R) s.sent s'.sent

variable {settings settings' : Settings} {Q : HttpRequest → HttpRequest → Prop}
  {C : XrayClientCache → XrayClientCache → Prop} {s s' : Server}

theorem Server.Matched.arrive (hsim : Simulation settings settings' Q C R) (h : s.Matched C R s')
    {request request' : HttpRequest} (hrequest : Q request request') :
    ∃ t', Server.Step settings' s' t' ∧
      t'.arrivals.map (·.request) = s'.arrivals.map (·.request) ++ [request'] ∧
      Server.Matched C R { s with
        cache := (handle settings request s.cache).2
        arrivals := s.arrivals ++ [⟨request, s.cache⟩]
        tasks := s.tasks ++ [(handle settings request s.cache).1] } t' :=
  ⟨_, .arrive s' request', List.map_append, hsim.cache hrequest h.cache,
    List.rel_append h.tasks (.cons (hsim.task hrequest h.cache) .nil), h.sent⟩

/-- The other task may have its effect too, with the same answer. -/
theorem Server.Matched.act (h : s.Matched C R s') {i : Nat} {e : Effect}
    {next : e.Answer → Grpc Response} (answer : e.Answer)
    (htask : s.tasks[i]? = some (.ask e next)) :
    ∃ t', Server.Step settings' s' t' ∧ t'.arrivals = s'.arrivals ∧
      Server.Matched C R { s with
        tasks := s.tasks.set i (next answer)
        sent := e.calls.map (i, ·) ++ s.sent } t' := by
  obtain ⟨task', htask', hmatched⟩ := forall₂_getElem? h.tasks htask
  cases hmatched with
  | trace event event' hnext =>
    exact ⟨_, .act s' i (.trace event') _ answer htask', rfl,
      ⟨h.cache, forall₂_set h.tasks i (hnext answer), h.sent⟩⟩
  | @rpc client client' related message next next' hnext =>
    exact ⟨_, .act s' i (.rpc (client'.request message)) _ answer htask', rfl,
      ⟨h.cache, forall₂_set h.tasks i (hnext answer), .cons (.mk i related message) h.sent⟩⟩

/-- Each run of one program is matched by a run of the other one for the related requests. -/
theorem Server.Run.simulated {n m : ℕ+} (hsim : Simulation settings settings' Q C R)
    (hnew : C (.new n) (.new m)) (h : Server.Run settings n s) {requests' : List HttpRequest}
    (hrequests : List.Forall₂ Q (s.arrivals.map (·.request)) requests') :
    ∃ s', Server.Run settings' m s' ∧ s'.arrivals.map (·.request) = requests' ∧
      s.Matched C R s' := by
  induction h generalizing requests' with
  | refl =>
    cases hrequests
    exact ⟨_, .refl, rfl, ⟨hnew, .nil, .nil⟩⟩
  | tail _ hstep ih =>
    cases hstep with
    | arrive request =>
      rw [List.map_append] at hrequests
      obtain ⟨before, request', rfl, hbefore, hrequest⟩ := forall₂_concat_left hrequests
      obtain ⟨s', hrun, rfl, hmatched⟩ := ih hbefore
      obtain ⟨t', hstep', harrivals, hmatched'⟩ := hmatched.arrive hsim hrequest
      exact ⟨t', hrun.tail hstep', harrivals, hmatched'⟩
    | act i e next answer htask =>
      obtain ⟨s', hrun, harrivals, hmatched⟩ := ih hrequests
      obtain ⟨t', hstep', harrivals', hmatched'⟩ := hmatched.act answer htask
      exact ⟨t', hrun.tail hstep', by rw [harrivals', harrivals], hmatched'⟩

theorem Server.Matched.answered_iff (h : s.Matched C R s') (i : Nat) (response : Response) :
    s'.tasks[i]? = some (.done response) ↔ s.tasks[i]? = some (.done response) := by
  constructor
  · intro hanswer
    obtain ⟨task, htask, hmatched⟩ := forall₂_getElem? h.tasks.flip hanswer
    rw [htask, hmatched.eq_done]
  · intro hanswer
    obtain ⟨task, htask, hmatched⟩ := forall₂_getElem? h.tasks hanswer
    cases hmatched
    exact htask

/-! ### Capacities -/

/-- What a node receives of a call: the message, the metadata, and that it is called at its URI. -/
def GrpcRequest.received (request : GrpcRequest) : Uri × Metadata × Rpc :=
  (request.channel.uri, request.metadata, request.rpc)

/-- What a node receives depends on the token and the URI of the client, not on the channel. -/
theorem received_request {client client' : XrayClient} (h : client.seen = client'.seen)
    (message : Rpc) : (client.request message).received = (client'.request message).received := by
  obtain ⟨htoken, huri⟩ := Prod.mk.inj h
  rw [GrpcRequest.received, GrpcRequest.received, XrayClient.request, XrayClient.request, htoken,
    huri]

/-- Two caches that the program may have, whatever their capacities and their clients. -/
def Possible (a b : XrayClientCache) : Prop := (∃ n, Reachable n a) ∧ ∃ n, Reachable n b

theorem simulation_possible (laws : LruLaws) (settings : Settings) :
    Simulation settings settings Eq Possible (fun client client' => client.seen = client'.seen)
    where
  task := by
    rintro request _ a b rfl ⟨⟨n, ha⟩, ⟨m, hb⟩⟩
    cases served laws settings request with
    | refused refusal all =>
      rw [all n a ha, all m b hb]
      exact .done _
    | planned hdispatch reads auth readsBody all =>
      obtain ⟨client, hclient, htask⟩ := all n a ha
      obtain ⟨client', hclient', htask'⟩ := all m b hb
      rw [htask, htask']
      refine Plan.matched _ (Option.some.inj ?_)
      rw [← nodeContext_ok_seen laws ha hclient, ← nodeContext_ok_seen laws hb hclient']
  cache := by
    rintro request _ a b rfl ⟨⟨n, ha⟩, ⟨m, hb⟩⟩
    exact ⟨⟨n, ha.handle settings request⟩, ⟨m, hb.handle settings request⟩⟩

/-- The capacity of the cache cannot be observed: whatever a run with one capacity answers and sends
to the nodes, a run with any other capacity may answer and send for the same requests. -/
theorem capacity_unobservable (laws : LruLaws) {n : ℕ+} (h : Server.Run settings n s) (m : ℕ+) :
    ∃ s' : Server, s'.Run settings m ∧
      s'.arrivals.map (·.request) = s.arrivals.map (·.request) ∧
      (∀ (i : Nat) (response : Response), s'.tasks[i]? = some (.done response) ↔
        s.tasks[i]? = some (.done response)) ∧
      s'.sent.map (Prod.map id GrpcRequest.received) =
        s.sent.map (Prod.map id GrpcRequest.received) := by
  have hrequests : List.Forall₂ Eq (s.arrivals.map (·.request)) (s.arrivals.map (·.request)) :=
    List.forall₂_refl _
  obtain ⟨s', hrun, harrivals, hmatched⟩ :=
    h.simulated (simulation_possible laws settings) ⟨⟨n, .new⟩, ⟨m, .new⟩⟩ hrequests
  refine ⟨s', hrun, harrivals, hmatched.answered_iff, ?_⟩
  have hsent := hmatched.sent
  generalize s.sent = sent, s'.sent = sent' at hsent
  induction hsent with
  | nil => rfl
  | cons hcall _ ih =>
    obtain ⟨i, hseen, message⟩ := hcall
    rw [List.map_cons, List.map_cons, ih, Prod.map_apply, Prod.map_apply,
      received_request hseen message]

end

open Reference

/-- Three calls of a program that keeps one client, and builds one of the clients again, and of a
program that keeps as many as the source. -/
theorem capacity_unobservable_sys :
    ∃ s s' : Server, s.Run ⟨"secret", 8080⟩ 1 ∧ s'.Run ⟨"secret", 8080⟩ defaultMaxEntries ∧
      s.sent.length = 3 ∧ s.cache.connects = 3 ∧ s'.cache.connects = 2 ∧
      s'.arrivals.map (·.request) = s.arrivals.map (·.request) ∧
      s'.sent.map (Prod.map id GrpcRequest.received) =
        s.sent.map (Prod.map id GrpcRequest.received) := by
  obtain ⟨s, hrun, hrequests, hsent⟩ :=
    exists_sysCalls 1 ["a.example", "b.example", "a.example"] (by decide)
  obtain ⟨s', hrun', harrivals, -, hreceived⟩ :=
    capacity_unobservable lruLaws hrun defaultMaxEntries
  have hcalls : ∀ request ∈ ["a.example", "b.example", "a.example"].map (sysRequest "secret"),
      hasEndpoint request = true := by
    simp [hasEndpoint_sysRequest]
  have hconnects : s.cache.connects = 3 := by
    rw [hrun.cache_eq, hrequests, serveAll_of_hasEndpoint hcalls]
    decide +kernel
  have hconnects' : s'.cache.connects = 2 := by
    rw [hrun'.cache_eq, harrivals, hrequests, serveAll_of_hasEndpoint hcalls]
    decide +kernel
  exact ⟨s, s', hrun, hrun', hsent, hconnects, hconnects', harrivals, hreceived⟩

end XrayBridge
