import XrayBridge.Lib.RemovalLog
import XrayBridge.Proof.Plans
import XrayBridge.Proof.Server

/-! Removals of users: runs in which requests of any number of clients remove users of one node, in
any order. -/

namespace XrayBridge

open Platform Dialogue RemovalLog

/-! ### Served removals -/

/-- The removals that the node has served for a request. -/
def servedFor (i : Nat) (log : List (Removal Nat NodeUser)) : List (Removal Nat NodeUser) :=
  log.filter (·.label = i)

theorem mem_servedFor {i : Nat} {log : List (Removal Nat NodeUser)} {r : Removal Nat NodeUser} :
    r ∈ servedFor i log ↔ r ∈ log ∧ r.label = i := by
  simp [servedFor]

theorem servedFor_cons (i j : Nat) (user : NodeUser) (before : Set NodeUser)
    (log : List (Removal Nat NodeUser)) :
    servedFor j (⟨i, user, before⟩ :: log) =
      if i = j then ⟨i, user, before⟩ :: servedFor j log else servedFor j log := by
  by_cases h : i = j <;> simp [servedFor, h]

section

variable [Platform]

/-! ### Runs -/

/-- The program and a node, with the removals that the node has served, each with the number of its
request and with the users that the node had then, the latest first. -/
structure World (node : RemovingNode) where
  server : Server
  state : node.State
  log : List (Removal Nat NodeUser)

section Runs

variable {node : RemovingNode} {settings : Settings}

/-- A step: a `DELETE` request for a user arrives, a task emits an event, or the node serves the call
of a task. -/
inductive World.Step (node : RemovingNode) (settings : Settings) : World node → World node → Prop
    where
  | arrive (w : World node) (request : HttpRequest) (captures : PathTemplate.Captures)
      (method : request.method = .delete)
      (endpoint : dispatch request.method request.path = .ok (.endpoint .removeUser, captures)) :
      Step node settings w { w with server := { w.server with
        cache := (handle settings request w.server.cache).2
        arrivals := w.server.arrivals ++ [⟨request, w.server.cache⟩]
        tasks := w.server.tasks ++ [(handle settings request w.server.cache).1] } }
  | emit (w : World node) (i : Nat) (event : TraceEvent) (next : Unit → Grpc Response)
      (h : w.server.tasks[i]? = some (.ask (.trace event) next)) :
      Step node settings w { w with server := { w.server with
        tasks := w.server.tasks.set i (next ()) } }
  | serve (w : World node) (i : Nat) (channel : Channel) (metadata : Metadata)
      (request : AlterInboundRequest) (user : NodeUser) (answer : Except Status Unit)
      (state : node.State) (next : Except Status Unit → Grpc Response)
      (h : w.server.tasks[i]? = some (.ask (.rpc ⟨channel, metadata, .alterInbound request⟩) next))
      (asked : request.removedUser = some user)
      (removes : node.Removes w.state user answer state) :
      Step node settings w {
        server := { w.server with
          tasks := w.server.tasks.set i (next answer)
          sent := (i, ⟨channel, metadata, .alterInbound request⟩) :: w.server.sent }
        state
        log := ⟨i, user, node.users w.state⟩ :: w.log }

/-- What the program and the node come to together, from a state of the node. -/
def World.Run (node : RemovingNode) (settings : Settings) (n : ℕ+) (state : node.State)
    (w : World node) : Prop :=
  Relation.ReflTransGen (World.Step node settings) ⟨.start ⟨settings, .new n⟩, state, []⟩ w

/-- Each step is a step of the program. -/
theorem World.Step.server {w w' : World node} (h : World.Step node settings w w') :
    Server.Step settings w.server w'.server := by
  cases h with
  | arrive request captures method endpoint => exact .arrive w.server request
  | emit i event next h => exact .act w.server i (.trace event) next () h
  | serve i channel metadata request user answer state next h asked removes =>
    exact .act w.server i (.rpc ⟨channel, metadata, .alterInbound request⟩) next answer h

theorem World.Run.server {n : ℕ+} {state : node.State} {w : World node}
    (h : World.Run node settings n state w) : Server.Run settings n w.server :=
  Relation.ReflTransGen.lift World.server (fun _ _ => World.Step.server) _ _ h

/-! ### Invariant -/

/-- A request for a removal that all its extractors let through. -/
structure RemovalRequest (settings : Settings) (a : Arrival) (client : XrayClient) (email : String)
    (q : RemoveUserQuery) : Prop where
  node : (nodeContext a.request.headers a.cache).1 = .ok client
  params : ∃ captures,
    dispatch a.request.method a.request.path = .ok (.endpoint .removeUser, captures) ∧
      removeUserHandler.params ⟨a.request, captures⟩ = .ok (email, q)
  auth : bearerAuth settings a.request.headers = .ok ()

/-- What remains to be done for a request, and the removals that the node has served for it. -/
inductive Progress (settings : Settings) (a : Arrival) :
    Grpc Response → List (Removal Nat NodeUser) → Prop where
  | refused {response : Response}
      (refused : ∀ client email q, ¬RemovalRequest settings a client email q) :
      Progress settings a (.done response) []
  | waiting {client : XrayClient} {email : String} {q : RemoveUserQuery}
      (accepted : RemovalRequest settings a client email q) :
      Progress settings a (.ask (.trace (.grpcCall "AlterInbound/RemoveUser" client.name))
        fun _ => removeUserCall client email q) []
  | calling {client : XrayClient} {email : String} {q : RemoveUserQuery}
      (accepted : RemovalRequest settings a client email q) :
      Progress settings a (removeUserCall client email q) []
  | answered {client : XrayClient} {email : String} {q : RemoveUserQuery} {response : Response}
      {r : Removal Nat NodeUser} (accepted : RemovalRequest settings a client email q)
      (element : r.element = (q.tag, email))
      (status : RemovalStatus r.Found q.ignoreMissing response.status) :
      Progress settings a (.done response) [r]

theorem progress_arrive {request : HttpRequest} {captures : PathTemplate.Captures}
    (hmethod : request.method = .delete)
    (hdispatch : dispatch request.method request.path = .ok (.endpoint .removeUser, captures))
    (cache : XrayClientCache) :
    Progress settings ⟨request, cache⟩ (handle settings request cache).1 [] := by
  have hhead : request.method ≠ .head := by
    rw [hmethod]
    decide
  have hparams {client : XrayClient} {email : String} {q : RemoveUserQuery}
      (h : RemovalRequest settings ⟨request, cache⟩ client email q) :
      removeUserHandler.params ⟨request, captures⟩ = .ok (email, q) := by
    obtain ⟨captures', hdispatch', hparams⟩ := h.params
    rw [hdispatch] at hdispatch'
    cases hdispatch'
    exact hparams
  rw [handle_fst hdispatch hhead, serve_fst]
  have hspec := extract_spec Endpoint.removeUser.handler settings ⟨request, captures⟩ cache
  generalize (Endpoint.removeUser.handler.extract settings ⟨request, captures⟩ cache).1 = result
    at hspec ⊢
  cases hspec with
  | node node => exact .refused fun client email q h => by cases node.symm.trans h.node
  | params node params =>
    exact .refused fun client email q h => by cases params.symm.trans (hparams h)
  | auth node params auth => exact .refused fun client email q h => by cases auth.symm.trans h.auth
  | body node params auth body => cases body
  | @run client ps b node params auth body =>
    obtain ⟨email, q⟩ := ps
    show Progress _ _ (toResponse (removeUserHandler.run client (email, q) ())) []
    rw [toResponse_removeUser]
    exact .waiting ⟨node, ⟨captures, hdispatch, params⟩, auth⟩

structure World.Invariant (settings : Settings) (state : node.State) (w : World node) : Prop where
  tasks : w.server.tasks.length = w.server.arrivals.length
  labels : ∀ r ∈ w.log, r.label < w.server.arrivals.length
  progress : ∀ i a task, w.server.arrivals[i]? = some a → w.server.tasks[i]? = some task →
    Progress settings a task (servedFor i w.log)
  takes : Takes (node.users state) w.log (node.users w.state)

theorem World.Invariant.servedFor_eq_nil {state : node.State} {w : World node}
    (h : w.Invariant settings state) {i : Nat} (hi : w.server.arrivals.length ≤ i) :
    servedFor i w.log = [] := by
  rw [servedFor, List.filter_eq_nil_iff]
  intro r hr hlabel
  have hlt := h.labels r hr
  have heq : r.label = i := by simpa using hlabel
  omega

theorem Progress.of_trace {a : Arrival} {event : TraceEvent} {next : Unit → Grpc Response}
    {served : List (Removal Nat NodeUser)}
    (h : Progress settings a (.ask (.trace event) next) served) :
    Progress settings a (next ()) served := by
  cases h with
  | waiting accepted => exact .calling accepted

theorem Progress.of_rpc (laws : ProstLaws) {a : Arrival} {channel : Channel} {metadata : Metadata}
    {request : AlterInboundRequest} {next : Except Status Unit → Grpc Response}
    {served : List (Removal Nat NodeUser)} {user : NodeUser} {answer : Except Status Unit}
    {state state' : node.State} (i : Nat)
    (h : Progress settings a (.ask (.rpc ⟨channel, metadata, .alterInbound request⟩) next) served)
    (hasked : request.removedUser = some user) (hremoves : node.Removes state user answer state') :
    Progress settings a (next answer) (⟨i, user, node.users state⟩ :: served) := by
  cases h with
  | calling accepted =>
    rw [removedUser_removeUserRequest laws] at hasked
    cases hasked
    exact .answered accepted rfl (removalStatus hremoves)

theorem World.Invariant.arrive {state : node.State} {w : World node}
    (h : w.Invariant settings state) {request : HttpRequest} {captures : PathTemplate.Captures}
    (hmethod : request.method = .delete)
    (hdispatch : dispatch request.method request.path = .ok (.endpoint .removeUser, captures)) :
    World.Invariant settings state { w with server := { w.server with
      cache := (handle settings request w.server.cache).2
      arrivals := w.server.arrivals ++ [⟨request, w.server.cache⟩]
      tasks := w.server.tasks ++ [(handle settings request w.server.cache).1] } } where
  tasks := by simp [h.tasks]
  labels r hr := by
    have hlt := h.labels r hr
    simp only [List.length_append, List.length_singleton]
    omega
  progress i a task ha htask := by
    rcases getElem?_append_pair h.tasks ha htask with ⟨ha, htask⟩ | ⟨hi, rfl, rfl⟩
    · exact h.progress i a task ha htask
    · rw [h.servedFor_eq_nil hi.ge]
      exact progress_arrive hmethod hdispatch w.server.cache
  takes := h.takes

/-- A step of task `i` that adds the removals `served` to those of its request. -/
theorem World.Invariant.act {state state' : node.State} {w : World node}
    (h : w.Invariant settings state) {i : Nat} {task : Grpc Response} {sent : List (Nat × GrpcRequest)}
    {log : List (Removal Nat NodeUser)}
    (htask : i < w.server.tasks.length) (hlabels : ∀ r ∈ log, r.label < w.server.arrivals.length)
    (hother : ∀ j, i ≠ j → servedFor j log = servedFor j w.log)
    (hprogress : ∀ a, w.server.arrivals[i]? = some a → Progress settings a task (servedFor i log))
    (htakes : Takes (node.users state) log (node.users state')) :
    World.Invariant settings state { w with
      server := { w.server with tasks := w.server.tasks.set i task, sent }
      state := state'
      log } where
  tasks := by simpa using h.tasks
  labels := hlabels
  progress j a task' ha htask' := by
    dsimp only at htask' ⊢
    by_cases hij : i = j
    · subst hij
      rw [List.getElem?_set_self htask] at htask'
      cases htask'
      exact hprogress a ha
    · rw [List.getElem?_set_ne hij] at htask'
      rw [hother j hij]
      exact h.progress j a task' ha htask'
  takes := htakes

theorem World.Invariant.step (laws : ProstLaws) {state : node.State} {w w' : World node}
    (h : w.Invariant settings state) (hstep : World.Step node settings w w') :
    w'.Invariant settings state := by
  cases hstep with
  | arrive request captures method endpoint => exact h.arrive method endpoint
  | emit i event next htask =>
    have hi := (List.getElem?_eq_some_iff.mp htask).1
    refine h.act hi h.labels (fun _ _ => rfl) (fun a ha => ?_) h.takes
    exact (h.progress i a _ ha htask).of_trace
  | serve i channel metadata request user answer state' next htask asked removes =>
    have hi := (List.getElem?_eq_some_iff.mp htask).1
    refine h.act hi ?_ (fun j hij => ?_) (fun a ha => ?_) ?_
    · intro r hr
      rcases List.mem_cons.mp hr with rfl | hr
      · rw [← h.tasks]
        exact hi
      · exact h.labels r hr
    · rw [servedFor_cons, if_neg hij]
    · rw [servedFor_cons, if_pos rfl]
      exact (h.progress i a _ ha htask).of_rpc laws i asked removes
    · rw [RemovingNode.users_eq removes]
      exact .cons i user h.takes

theorem World.Run.invariant (laws : ProstLaws) {n : ℕ+} {state : node.State} {w : World node}
    (h : World.Run node settings n state w) : w.Invariant settings state := by
  induction h with
  | refl =>
    refine ⟨rfl, fun r hr => ?_, fun i a task ha => ?_, .nil⟩
    · cases hr
    · cases ha
  | tail _ hstep ih => exact ih.step laws hstep

/-! ### Requests and answers -/

/-- Request number `i` asks for the removal of a user. -/
def World.Asks (settings : Settings) (w : World node) (i : Nat) (user : NodeUser)
    (ignoreMissing : Bool) : Prop :=
  ∃ a client email q, w.server.arrivals[i]? = some a ∧ RemovalRequest settings a client email q ∧
    user = (q.tag, email) ∧ ignoreMissing = q.ignoreMissing

def World.Answered (w : World node) (i status : Nat) : Prop :=
  ∃ response, w.server.tasks[i]? = some (.done response) ∧ response.status = status

/-- All requests have been answered. -/
def World.Finished (w : World node) : Prop :=
  ∀ task ∈ w.server.tasks, ∃ response, task = .done response

theorem RemovalRequest.params_eq {a a' : Arrival} {client client' : XrayClient}
    {email email' : String} {q q' : RemoveUserQuery} (hsame : a.request = a'.request)
    (h : RemovalRequest settings a client email q)
    (h' : RemovalRequest settings a' client' email' q') : (email, q) = (email', q') := by
  obtain ⟨captures, hdispatch, hparams⟩ := h.params
  obtain ⟨captures', hdispatch', hparams'⟩ := h'.params
  rw [hsame] at hdispatch hparams
  cases hdispatch.symm.trans hdispatch'
  exact Except.ok.inj (hparams.symm.trans hparams')

theorem World.Invariant.served {state : node.State} {w : World node}
    (h : w.Invariant settings state) {i status : Nat} {user : NodeUser} {ignoreMissing : Bool}
    (hasks : w.Asks settings i user ignoreMissing) (hanswered : w.Answered i status) :
    ∃ r, servedFor i w.log = [r] ∧ r.element = user ∧ RemovalStatus r.Found ignoreMissing status := by
  obtain ⟨a, client, email, q, ha, hrequest, rfl, rfl⟩ := hasks
  obtain ⟨response, htask, rfl⟩ := hanswered
  have hprogress := h.progress i a _ ha htask
  generalize servedFor i w.log = served at hprogress ⊢
  cases hprogress with
  | refused refused => exact absurd hrequest (refused client email q)
  | @answered client' email' q' _ r accepted element status =>
    cases RemovalRequest.params_eq rfl accepted hrequest
    exact ⟨r, rfl, element, status⟩

theorem World.Invariant.asked {state : node.State} {w : World node}
    (h : w.Invariant settings state) {r : Removal Nat NodeUser} (hr : r ∈ w.log) :
    ∃ ignoreMissing status, w.Asks settings r.label r.element ignoreMissing ∧
      w.Answered r.label status := by
  have hi := h.labels r hr
  obtain ⟨a, ha⟩ : ∃ a, w.server.arrivals[r.label]? = some a := ⟨_, List.getElem?_eq_getElem hi⟩
  obtain ⟨task, htask⟩ : ∃ task, w.server.tasks[r.label]? = some task :=
    ⟨_, List.getElem?_eq_getElem (h.tasks ▸ hi)⟩
  have hmem : r ∈ servedFor r.label w.log := mem_servedFor.mpr ⟨hr, rfl⟩
  have hprogress := h.progress r.label a task ha htask
  generalize servedFor r.label w.log = served at hmem hprogress
  cases hprogress with
  | @answered client email q response r' accepted element status =>
    cases List.mem_singleton.mp hmem
    exact ⟨q.ignoreMissing, response.status, ⟨a, client, email, q, ha, accepted, element, rfl⟩,
      response, htask, rfl⟩
  | _ => cases hmem

/-- The users whom the node has been asked to remove are those of the answered requests. -/
theorem World.Invariant.exists_mem_log_iff {state : node.State} {w : World node}
    (h : w.Invariant settings state) {user : NodeUser} :
    (∃ r ∈ w.log, r.element = user) ↔
      ∃ i ignoreMissing status, w.Asks settings i user ignoreMissing ∧ w.Answered i status := by
  constructor
  · rintro ⟨r, hr, rfl⟩
    obtain ⟨ignoreMissing, status, hasked⟩ := h.asked hr
    exact ⟨r.label, ignoreMissing, status, hasked⟩
  · rintro ⟨i, ignoreMissing, status, hasks, hanswered⟩
    obtain ⟨r, hserved, helement, -⟩ := h.served hasks hanswered
    have hmem : r ∈ servedFor i w.log := hserved ▸ List.mem_singleton_self r
    exact ⟨r, (mem_servedFor.mp hmem).1, helement⟩

/-! ### Completion -/

/-- Steps lead on to `w'` without further arrivals, and no answer is taken back. -/
structure World.GoesOn (settings : Settings) (w w' : World node) : Prop where
  steps : Relation.ReflTransGen (World.Step node settings) w w'
  arrivals : w'.server.arrivals = w.server.arrivals
  length : w'.server.tasks.length = w.server.tasks.length
  kept : ∀ (j : Nat) (response : Response), w.server.tasks[j]? = some (.done response) →
    w'.server.tasks[j]? = some (.done response)

theorem World.GoesOn.refl (w : World node) : w.GoesOn settings w :=
  ⟨.refl, rfl, rfl, fun _ _ h => h⟩

theorem World.GoesOn.trans {w w' w'' : World node} (h : w.GoesOn settings w')
    (h' : w'.GoesOn settings w'') : w.GoesOn settings w'' where
  steps := h.steps.trans h'.steps
  arrivals := h'.arrivals.trans h.arrivals
  length := h'.length.trans h.length
  kept j response hdone := h'.kept j response (h.kept j response hdone)

/-- A step of task `i`, which has not been answered, goes on. -/
theorem World.GoesOn.act {w : World node} {i : Nat} {e : Effect} {next : e.Answer → Grpc Response}
    {task : Grpc Response} {sent : List (Nat × GrpcRequest)} {state : node.State}
    {log : List (Removal Nat NodeUser)} (htask : w.server.tasks[i]? = some (.ask e next))
    (hstep : World.Step node settings w { w with
      server := { w.server with tasks := w.server.tasks.set i task, sent }, state, log }) :
    w.GoesOn settings { w with
      server := { w.server with tasks := w.server.tasks.set i task, sent }, state, log } where
  steps := .single hstep
  arrivals := rfl
  length := by simp
  kept j response hdone := by
    have hij : i ≠ j := by
      rintro rfl
      cases htask.symm.trans hdone
    exact (List.getElem?_set_ne hij).trans hdone

/-- A task that waits can have its event. -/
theorem World.exists_call (w : World node) {i : Nat} {event : TraceEvent} {call : Grpc Response}
    (htask : w.server.tasks[i]? = some (.ask (.trace event) fun _ => call)) :
    ∃ w' : World node, w.GoesOn settings w' ∧ w'.server.tasks[i]? = some call ∧
      w'.state = w.state := by
  have hstep : World.Step node settings w _ := .emit w i _ _ htask
  exact ⟨_, .act htask hstep, List.getElem?_set_self (List.getElem?_eq_some_iff.mp htask).1, rfl⟩

/-- The call of a task can be served, and is then answered. -/
theorem World.answer_call (laws : ProstLaws) (w : World node) {i : Nat} {client : XrayClient}
    {email : String} {q : RemoveUserQuery}
    (htask : w.server.tasks[i]? = some (removeUserCall client email q)) :
    ∃ w' response, w.GoesOn settings w' ∧ w'.server.tasks[i]? = some (.done response) ∧
      World.Step node settings w w' ∧
      w'.log = ⟨i, (q.tag, email), node.users w.state⟩ :: w.log := by
  obtain ⟨answer, state, hremoves⟩ := node.total w.state (q.tag, email)
  have hstep : World.Step node settings w _ :=
    .serve w i client.channel _ _ (q.tag, email) answer state _ htask
      (removedUser_removeUserRequest laws (q.tag, email)) hremoves
  refine ⟨_, removeUserResponse email q answer, .act htask hstep, ?_, hstep, rfl⟩
  exact List.getElem?_set_self (List.getElem?_eq_some_iff.mp htask).1

/-- A request that has arrived can be answered. -/
theorem World.Invariant.answer (laws : ProstLaws) {state : node.State} {w : World node}
    (h : w.Invariant settings state) {i : Nat} (hi : i < w.server.tasks.length) :
    ∃ w' response, w.GoesOn settings w' ∧ w'.server.tasks[i]? = some (.done response) := by
  obtain ⟨task, htask⟩ : ∃ task, w.server.tasks[i]? = some task := ⟨_, List.getElem?_eq_getElem hi⟩
  obtain ⟨a, ha⟩ : ∃ a, w.server.arrivals[i]? = some a :=
    ⟨_, List.getElem?_eq_getElem (h.tasks ▸ hi)⟩
  have hprogress := h.progress i a task ha htask
  generalize servedFor i w.log = served at hprogress
  cases hprogress with
  | @refused response refused => exact ⟨w, response, .refl w, htask⟩
  | @answered client email q response r accepted element status =>
    exact ⟨w, response, .refl w, htask⟩
  | calling accepted =>
    obtain ⟨w', response, hgoes, hdone, -⟩ := w.answer_call laws htask
    exact ⟨w', response, hgoes, hdone⟩
  | @waiting client email q accepted =>
    obtain ⟨w₁, hemit, hcall, -⟩ := w.exists_call htask
    obtain ⟨w', response, hgoes, hdone, -⟩ := w₁.answer_call laws hcall
    exact ⟨w', response, hemit.trans hgoes, hdone⟩

theorem World.Run.goesOn {n : ℕ+} {state : node.State} {w w' : World node}
    (h : World.Run node settings n state w) (hgoes : w.GoesOn settings w') :
    World.Run node settings n state w' :=
  h.trans hgoes.steps

/-- Without further arrivals, all requests can be answered. -/
theorem World.Run.finish (laws : ProstLaws) {n : ℕ+} {state : node.State} {w : World node}
    (h : World.Run node settings n state w) :
    ∃ w', w.GoesOn settings w' ∧ w'.Finished := by
  have hfirst (k : Nat) : k ≤ w.server.tasks.length → ∃ w', w.GoesOn settings w' ∧
      ∀ i < k, ∃ response, w'.server.tasks[i]? = some (.done response) := by
    induction k with
    | zero => exact fun _ => ⟨w, .refl w, fun i hi => absurd hi (Nat.not_lt_zero i)⟩
    | succ k ih =>
      intro hk
      obtain ⟨w', hgoes, hdone⟩ := ih (by omega)
      have hlength := hgoes.length
      obtain ⟨w'', response, hgoes', hanswered⟩ :=
        ((h.goesOn hgoes).invariant laws).answer laws (i := k) (by omega)
      refine ⟨w'', hgoes.trans hgoes', fun i hi => ?_⟩
      rcases Nat.lt_succ_iff_lt_or_eq.mp hi with hi | rfl
      · obtain ⟨response, hresponse⟩ := hdone i hi
        exact ⟨response, hgoes'.kept i response hresponse⟩
      · exact ⟨response, hanswered⟩
  obtain ⟨w', hgoes, hdone⟩ := hfirst w.server.tasks.length le_rfl
  refine ⟨w', hgoes, fun task htask => ?_⟩
  obtain ⟨i, hi⟩ := List.mem_iff_getElem?.mp htask
  have hlt := (List.getElem?_eq_some_iff.mp hi).1
  obtain ⟨response, hresponse⟩ := hdone i (hgoes.length ▸ hlt)
  exact ⟨response, Option.some.inj (hi.symm.trans hresponse)⟩

/-- A request for a removal may arrive, and waits then. -/
theorem World.exists_arrival (w : World node) {request : HttpRequest} {client : XrayClient}
    {email : String} {q : RemoveUserQuery} (hmethod : request.method = .delete)
    (hrequest : RemovalRequest settings ⟨request, w.server.cache⟩ client email q) :
    ∃ w', World.Step node settings w w' ∧
      w'.server.arrivals = w.server.arrivals ++ [⟨request, w.server.cache⟩] ∧
      w'.server.tasks = w.server.tasks ++
        [.ask (.trace (.grpcCall "AlterInbound/RemoveUser" client.name))
          fun _ => removeUserCall client email q] ∧
      w'.state = w.state := by
  obtain ⟨captures, hdispatch, hparams⟩ := hrequest.params
  have hhead : request.method ≠ .head := by
    rw [hmethod]
    decide
  have hhandle : (handle settings request w.server.cache).1 =
      toResponse (removeUserHandler.run client (email, q) ()) := by
    have hread : Endpoint.removeUser.handler.params ⟨request, captures⟩ = .ok (email, q) := hparams
    rw [handle_fst hdispatch hhead, serve_fst, extract_of_ok hrequest.node, hread, hrequest.auth]
    rfl
  refine ⟨_, .arrive w request captures hmethod hdispatch, rfl, ?_, rfl⟩
  rw [← toResponse_removeUser, ← hhandle]

/-- A request for a removal may arrive, have its event, and then be served. -/
theorem World.Invariant.exists_served (laws : ProstLaws) {state : node.State} {w : World node}
    (h : w.Invariant settings state) {request : HttpRequest} {client : XrayClient} {email : String}
    {q : RemoveUserQuery} (hmethod : request.method = .delete)
    (hrequest : RemovalRequest settings ⟨request, w.server.cache⟩ client email q) :
    ∃ called w' : World node, Relation.ReflTransGen (World.Step node settings) w called ∧
      called.server.arrivals = w.server.arrivals ++ [⟨request, w.server.cache⟩] ∧
      called.state = w.state ∧ (∀ j status, w.Answered j status → called.Answered j status) ∧
      World.Step node settings called w' ∧ w'.server.arrivals = called.server.arrivals ∧
      w'.log = ⟨w.server.arrivals.length, (q.tag, email), node.users called.state⟩ :: called.log ∧
      ∃ status, w'.Answered w.server.arrivals.length status := by
  obtain ⟨arrived, harrive, harrivals, htasks, hstate⟩ := w.exists_arrival hmethod hrequest
  have htask : arrived.server.tasks[w.server.arrivals.length]? =
      some (.ask (.trace (.grpcCall "AlterInbound/RemoveUser" client.name))
        fun _ => removeUserCall client email q) := by
    rw [htasks, ← h.tasks, List.getElem?_concat_length]
  obtain ⟨called, hcall, hwaits, hstate'⟩ := arrived.exists_call htask
  obtain ⟨w', response, hreply, hdone, hstep, hlog⟩ := called.answer_call laws hwaits
  refine ⟨called, w', hcall.steps.head harrive, hcall.arrivals.trans harrivals,
    hstate'.trans hstate, ?_, hstep, hreply.arrivals, hlog, response.status, response, hdone, rfl⟩
  rintro j status ⟨response', htask', hstatus⟩
  refine ⟨response', hcall.kept j response' ?_, hstatus⟩
  rw [htasks, List.getElem?_append_left (List.getElem?_eq_some_iff.mp htask').1, htask']

theorem World.Asks.mono {w w' : World node} {i : Nat} {user : NodeUser} {ignoreMissing : Bool}
    (h : w.Asks settings i user ignoreMissing) {arrivals : List Arrival}
    (harrivals : w'.server.arrivals = w.server.arrivals ++ arrivals) :
    w'.Asks settings i user ignoreMissing := by
  obtain ⟨a, client, email, q, ha, hrest⟩ := h
  refine ⟨a, client, email, q, ?_, hrest⟩
  rw [harrivals, List.getElem?_append_left (List.getElem?_eq_some_iff.mp ha).1, ha]

/-! ### Idempotence -/

/-- What removals do in the state `w`, after the node has started in `state`. -/
structure Idempotent (settings : Settings) (state : node.State) (w : World node) : Prop where
  /-- A request that ignores missing users succeeds. -/
  ignoring {i status : Nat} {user : NodeUser} (asks : w.Asks settings i user true)
    (answered : w.Answered i status) : status = 200
  /-- A strict one succeeds exactly if the user was there when the node served it. -/
  strict {i status : Nat} {user : NodeUser} (asks : w.Asks settings i user false)
    (answered : w.Answered i status) :
    ∃ before, (⟨i, user, before⟩ : Removal Nat NodeUser) ∈ w.log ∧
      (status = 200 ↔ user ∈ before) ∧ (status = 404 ↔ user ∉ before)
  /-- Of strict requests for a user who was there, exactly one succeeds. -/
  once {user : NodeUser} (there : user ∈ node.users state)
    (answered : ∃ i status, w.Asks settings i user false ∧ w.Answered i status)
    (onlyStrict : ∀ i status, w.Asks settings i user true → ¬w.Answered i status) :
    ∃! i, w.Asks settings i user false ∧ w.Answered i 200
  never {i : Nat} {user : NodeUser} (absent : user ∉ node.users state)
    (asks : w.Asks settings i user false) : ¬w.Answered i 200
  /-- Among requests of both kinds, at most one of the strict ones succeeds. -/
  atMostOnce {i j : Nat} {user : NodeUser} (asks : w.Asks settings i user false)
    (answered : w.Answered i 200) (asks' : w.Asks settings j user false)
    (answered' : w.Answered j 200) : i = j
  gone {i : Nat} {user : NodeUser} {ignoreMissing : Bool} (asks : w.Asks settings i user ignoreMissing)
    (answered : w.Answered i 200) : user ∉ node.users w.state
  /-- Once a removal has been answered, the next one of the user leaves the node as it is. -/
  repeated {i j status : Nat} {user : NodeUser} {ignoreMissing : Bool} {before : Set NodeUser}
    {w' : World node} (asks : w.Asks settings i user ignoreMissing)
    (answered : w.Answered i status) (step : World.Step node settings w w')
    (serves : w'.log = ⟨j, user, before⟩ :: w.log) : w'.state = w.state
  users : node.users w.state = node.users state \
    {user | ∃ i ignoreMissing status, w.Asks settings i user ignoreMissing ∧ w.Answered i status}
  final (finished : w.Finished) : node.users w.state = node.users state \
    {user | ∃ i ignoreMissing, w.Asks settings i user ignoreMissing}
  answers : ∃ w', Relation.ReflTransGen (World.Step node settings) w w' ∧
    w'.server.arrivals = w.server.arrivals ∧ w'.Finished

theorem World.Invariant.gone {state : node.State} {w : World node}
    (h : w.Invariant settings state) {i status : Nat} {user : NodeUser} {ignoreMissing : Bool}
    (hasks : w.Asks settings i user ignoreMissing) (hanswered : w.Answered i status) :
    user ∉ node.users w.state := by
  obtain ⟨r, hr, rfl⟩ := h.exists_mem_log_iff.mpr ⟨i, ignoreMissing, status, hasks, hanswered⟩
  exact h.takes.not_mem hr

theorem World.Invariant.found {state : node.State} {w : World node}
    (h : w.Invariant settings state) {i : Nat} {user : NodeUser}
    (hasks : w.Asks settings i user false) (hanswered : w.Answered i 200) :
    ∃ r ∈ w.log, r.label = i ∧ r.element = user ∧ r.Found := by
  obtain ⟨r, hserved, helement, hstatus⟩ := h.served hasks hanswered
  obtain ⟨hr, hlabel⟩ := mem_servedFor.mp (hserved ▸ List.mem_singleton_self r)
  cases hstatus with
  | ok hfound => exact ⟨r, hr, hlabel, helement, hfound.resolve_right Bool.false_ne_true⟩

theorem World.Invariant.atMostOnce {state : node.State} {w : World node}
    (h : w.Invariant settings state) {i j : Nat} {user : NodeUser}
    (hasks : w.Asks settings i user false) (hanswered : w.Answered i 200)
    (hasks' : w.Asks settings j user false) (hanswered' : w.Answered j 200) : i = j := by
  obtain ⟨r, hr, rfl, rfl, hfound⟩ := h.found hasks hanswered
  obtain ⟨r', hr', rfl, helement, hfound'⟩ := h.found hasks' hanswered'
  rw [h.takes.eq_of_found hr hr' helement.symm hfound hfound']

/-- The request whose removal finds its user succeeds. -/
theorem World.Invariant.answered_of_found {state : node.State} {w : World node}
    (h : w.Invariant settings state) {r : Removal Nat NodeUser} (hr : r ∈ w.log) (hfound : r.Found) :
    ∃ ignoreMissing, w.Asks settings r.label r.element ignoreMissing ∧ w.Answered r.label 200 := by
  obtain ⟨ignoreMissing, status, hasks, hanswered⟩ := h.asked hr
  obtain ⟨r', hserved, -, hstatus⟩ := h.served hasks hanswered
  have hmem : r ∈ servedFor r.label w.log := mem_servedFor.mpr ⟨hr, rfl⟩
  rw [hserved, List.mem_singleton] at hmem
  subst hmem
  cases hstatus with
  | ok _ => exact ⟨ignoreMissing, hasks, hanswered⟩
  | missing gone _ => exact absurd hfound gone

theorem World.Invariant.users_eq {state : node.State} {w : World node}
    (h : w.Invariant settings state) : node.users w.state = node.users state \
      {user | ∃ i ignoreMissing status, w.Asks settings i user ignoreMissing ∧
        w.Answered i status} := by
  rw [h.takes.eq_diff]
  congr 1
  ext user
  exact h.exists_mem_log_iff

theorem World.Invariant.answered_of_finished {state : node.State} {w : World node}
    (h : w.Invariant settings state) (hfinished : w.Finished) {i : Nat} {user : NodeUser}
    {ignoreMissing : Bool} (hasks : w.Asks settings i user ignoreMissing) :
    ∃ status, w.Answered i status := by
  obtain ⟨a, client, email, q, ha, -⟩ := hasks
  have hi : i < w.server.tasks.length := h.tasks ▸ (List.getElem?_eq_some_iff.mp ha).1
  obtain ⟨response, hresponse⟩ := hfinished _ (List.getElem_mem hi)
  exact ⟨response.status, response, List.getElem?_eq_some_iff.mpr ⟨hi, hresponse⟩, rfl⟩

/-- User removal is idempotent over whole runs. -/
theorem removeUser_idempotent (laws : ProstLaws) (node : RemovingNode) {settings : Settings}
    {n : ℕ+} {state : node.State} {w : World node} (h : World.Run node settings n state w) :
    Idempotent settings state w := by
  have hinv := h.invariant laws
  constructor
  case ignoring =>
    intro i status user asks answered
    obtain ⟨r, -, -, hstatus⟩ := hinv.served asks answered
    cases hstatus with
    | ok _ => rfl
    | missing _ strict => cases strict
  case strict =>
    intro i status user asks answered
    obtain ⟨r, hserved, rfl, hstatus⟩ := hinv.served asks answered
    obtain ⟨hr, rfl⟩ := mem_servedFor.mp (hserved ▸ List.mem_singleton_self r)
    refine ⟨r.before, hr, ?_⟩
    cases hstatus with
    | ok hfound =>
      have hfound := hfound.resolve_right Bool.false_ne_true
      exact ⟨iff_of_true rfl hfound, iff_of_false (by decide) (not_not.mpr hfound)⟩
    | missing gone _ => exact ⟨iff_of_false (by decide) gone, iff_of_true rfl gone⟩
  case once =>
    intro user there answered onlyStrict
    obtain ⟨i, status, hasks, hanswered⟩ := answered
    obtain ⟨r, hr, rfl⟩ := hinv.exists_mem_log_iff.mpr ⟨i, false, status, hasks, hanswered⟩
    obtain ⟨r', hr', helement, hfound⟩ := hinv.takes.exists_found hr there
    obtain ⟨ignoreMissing, hasks', hanswered'⟩ := hinv.answered_of_found hr' hfound
    rw [helement] at hasks'
    cases ignoreMissing with
    | true => exact absurd hanswered' (onlyStrict _ _ hasks')
    | false =>
      exact ⟨r'.label, ⟨hasks', hanswered'⟩, fun j hj =>
        hinv.atMostOnce hj.1 hj.2 hasks' hanswered'⟩
  case never =>
    intro i user absent asks answered
    obtain ⟨r, hr, -, rfl, hfound⟩ := hinv.found asks answered
    exact absent (hinv.takes.mem_of_found hr hfound)
  case atMostOnce => exact hinv.atMostOnce
  case gone => exact hinv.gone
  case repeated =>
    intro i j status user ignoreMissing before w' asks answered step serves
    cases step with
    | arrive request captures method endpoint => rfl
    | emit i event next htask => rfl
    | serve i channel metadata request user' answer state' next htask asked removes =>
      cases serves
      exact (node.absent removes (hinv.gone asks answered)).2
  case users => exact hinv.users_eq
  case final =>
    intro finished
    rw [hinv.users_eq]
    congr 1
    ext user
    constructor
    · rintro ⟨i, ignoreMissing, status, hasks, -⟩
      exact ⟨i, ignoreMissing, hasks⟩
    · rintro ⟨i, ignoreMissing, hasks⟩
      obtain ⟨status, hanswered⟩ := hinv.answered_of_finished finished hasks
      exact ⟨i, ignoreMissing, status, hasks, hanswered⟩
  case answers =>
    obtain ⟨w', hgoes, hfinished⟩ := h.finish laws
    exact ⟨w', hgoes.steps, hgoes.arrivals, hfinished⟩

end Runs

end

open Reference

/-- A node that is nothing but its users. -/
def userSet : RemovingNode where
  State := Set NodeUser
  users := id
  Removes users user answer users' :=
    (user ∈ users ∧ answer = .ok () ∨ user ∉ users ∧ answer = .error ⟨.unknown, "User NOT FOUND"⟩) ∧
    users' = users \ {user}
  total users user := by
    by_cases huser : user ∈ users
    · exact ⟨_, _, Or.inl ⟨huser, rfl⟩, rfl⟩
    · exact ⟨_, _, Or.inr ⟨huser, rfl⟩, rfl⟩
  present h huser := ⟨(h.1.resolve_right fun h => h.1 huser).2, h.2⟩
  absent h huser := by
    have hanswer := (h.1.resolve_left fun h => huser h.1).2
    refine ⟨⟨_, Or.inr ⟨rfl, "User ", "NOT FOUND", "", ?_, ?_⟩, hanswer⟩, ?_⟩
    · rfl
    · decide +kernel
    · exact h.2.trans (Set.sdiff_singleton_eq_self huser)

/-- A strict removal of the user `a`. -/
def strictRequest : HttpRequest where
  method := .delete
  path := ResourceOperation.removeUser.collection ++ "/" ++ "a"
  query := "tag=inbound&ignore_missing=false"
  headers := [("authorization", utf8 "Bearer secret"), ("x-node-domain", utf8 "a.example"),
    ("x-node-token", utf8 "t")]
  body := []

/-- One that ignores missing users. -/
def ignoringRequest : HttpRequest := { strictRequest with query := "tag=inbound" }

theorem addresses_a : Addresses .removeUser "a" "a" :=
  have hencoded : EncodedInto .removeUser "a" "a" :=
    ⟨PercentCoding.encodes_self (by decide), fun _ => by decide⟩
  hencoded.addresses routeLaws (by decide) (by decide)

theorem addressed_strictRequest :
    addressed strictRequest = some ("t", (⟨"a.example", 443⟩ : Reference.Uri)) := by
  rfl

theorem exists_removalRequest {n : ℕ+} {cache : XrayClientCache} (hcache : Reachable n cache)
    (text : String) {q : RemoveUserQuery}
    (hquery : RemoveUserQuery.deserialize (Platform.formPairs text) = some q) :
    ∃ client, client.seen = ("t", (⟨"a.example", 443⟩ : Reference.Uri)) ∧
      RemovalRequest ⟨"secret", 8080⟩ ⟨{ strictRequest with query := text }, cache⟩ client "a"
        q := by
  obtain ⟨client, hclient, hseen⟩ :=
    exists_client_of_addressed lruLaws hcache addressed_strictRequest
  obtain ⟨captures, hdispatch, hpath⟩ := addresses_a
  refine ⟨client, hseen, hclient, ⟨captures, hdispatch, ?_⟩, rfl⟩
  show (do return (← path _, ← query RemoveUserQuery.deserialize _) : Except Abort _) = _
  rw [hpath, query, hquery]
  rfl

theorem exists_strict {n : ℕ+} {cache : XrayClientCache} (hcache : Reachable n cache) :
    ∃ client, client.seen = ("t", (⟨"a.example", 443⟩ : Reference.Uri)) ∧
      RemovalRequest ⟨"secret", 8080⟩ ⟨strictRequest, cache⟩ client "a" ⟨"inbound", false⟩ :=
  exists_removalRequest hcache strictRequest.query rfl

theorem exists_ignoring {n : ℕ+} {cache : XrayClientCache} (hcache : Reachable n cache) :
    ∃ client, client.seen = ("t", (⟨"a.example", 443⟩ : Reference.Uri)) ∧
      RemovalRequest ⟨"secret", 8080⟩ ⟨ignoringRequest, cache⟩ client "a" ⟨"inbound", true⟩ :=
  exists_removalRequest hcache ignoringRequest.query rfl

/-- Where all requests are `strictRequest`, nothing but its removal is asked for. -/
theorem World.Asks.eq_strict {node : RemovingNode} {w : World node} {i : Nat} {user : NodeUser}
    {ignoreMissing : Bool} (h : w.Asks ⟨"secret", 8080⟩ i user ignoreMissing)
    (hstrict : ∀ a ∈ w.server.arrivals, a.request = strictRequest) :
    user = ("inbound", "a") ∧ ignoreMissing = false := by
  obtain ⟨a, client, email, q, ha, hrequest, rfl, rfl⟩ := h
  obtain ⟨client', -, hrequest'⟩ := exists_strict (Reachable.new (n := 1))
  cases hrequest.params_eq (hstrict a (List.mem_of_getElem? ha)) hrequest'
  exact ⟨rfl, rfl⟩

/-- Two strict removals of the user `a`, both of which have been answered. -/
theorem exists_strictRun (users : Set NodeUser) :
    ∃ w, World.Run userSet ⟨"secret", 8080⟩ 1 users w ∧ w.server.arrivals.length = 2 ∧
      (∀ a ∈ w.server.arrivals, a.request = strictRequest) ∧
      w.Asks ⟨"secret", 8080⟩ 0 ("inbound", "a") false ∧
      w.Asks ⟨"secret", 8080⟩ 1 ("inbound", "a") false ∧ w.Finished := by
  have hnew : World.Run userSet ⟨"secret", 8080⟩ 1 users _ := .refl
  obtain ⟨client, -, hrequest⟩ := exists_strict hnew.server.reachable
  obtain ⟨one, hstep, harrivals, -, -⟩ := World.exists_arrival _ rfl hrequest
  have hone := hnew.tail hstep
  obtain ⟨client', -, hrequest'⟩ := exists_strict (World.Run.server hone).reachable
  obtain ⟨two, hstep', harrivals', -, -⟩ := one.exists_arrival rfl hrequest'
  have htwo : World.Run userSet ⟨"secret", 8080⟩ 1 users two := hone.tail hstep'
  obtain ⟨w, hgoes, hfinished⟩ := htwo.finish prostLaws
  have hsame := hgoes.arrivals
  rw [harrivals', harrivals] at hsame
  refine ⟨w, htwo.goesOn hgoes, by rw [hsame]; rfl, ?_, ?_, ?_, hfinished⟩
  · rw [hsame]
    simp [Server.start]
  · exact ⟨_, client, _, _, by rw [hsame]; rfl, hrequest, rfl, rfl⟩
  · exact ⟨_, client', _, _, by rw [hsame]; rfl, hrequest', rfl, rfl⟩

/-- Two strict removals of a user who is there, one of which succeeds, and then a removal that
ignores missing users, which succeeds and changes nothing. -/
theorem removeUser_idempotent_strict :
    ∃ w w' : World userSet,
      World.Run userSet ⟨"secret", 8080⟩ 1
        ({("inbound", "a"), ("inbound", "b")} : Set NodeUser) w ∧
      Relation.ReflTransGen (World.Step userSet ⟨"secret", 8080⟩) w w' ∧
      w.Asks ⟨"secret", 8080⟩ 0 ("inbound", "a") false ∧
      w.Asks ⟨"secret", 8080⟩ 1 ("inbound", "a") false ∧ w.Finished ∧
      (∃! i, w.Asks ⟨"secret", 8080⟩ i ("inbound", "a") false ∧ w.Answered i 200) ∧
      w'.Asks ⟨"secret", 8080⟩ 2 ("inbound", "a") true ∧ w'.Answered 2 200 ∧
      w'.state = w.state ∧ userSet.users w.state = {("inbound", "b")} := by
  obtain ⟨w, hrun, hlength, hstrict, hasks, hasks', hfinished⟩ :=
    exists_strictRun {("inbound", "a"), ("inbound", "b")}
  have hinv := hrun.invariant prostLaws
  have hidempotent := removeUser_idempotent prostLaws userSet hrun
  obtain ⟨status, hanswered⟩ := hinv.answered_of_finished hfinished hasks
  have honce := hidempotent.once (Set.mem_insert _ _) ⟨0, status, hasks, hanswered⟩
    fun i status' hignoring => by cases (hignoring.eq_strict hstrict).2
  have husers : userSet.users w.state = {("inbound", "b")} := by
    have hnamed : {user | ∃ i ignoreMissing, w.Asks ⟨"secret", 8080⟩ i user ignoreMissing} =
        {("inbound", "a")} := by
      ext user
      exact ⟨fun ⟨i, ignoreMissing, h⟩ => (h.eq_strict hstrict).1, fun h => ⟨0, false, h ▸ hasks⟩⟩
    rw [hidempotent.final hfinished, hnamed]
    exact Set.pair_sdiff_left (by decide)
  obtain ⟨client, -, hrequest⟩ := exists_ignoring hrun.server.reachable
  obtain ⟨called, w', hcalled, harrivals, hstate, hkept, hstep, hsame, hlog, status', hserved⟩ :=
    hinv.exists_served prostLaws rfl hrequest
  rw [hlength] at hserved
  have hignoring : w'.Asks ⟨"secret", 8080⟩ 2 ("inbound", "a") true := by
    refine ⟨⟨ignoringRequest, w.server.cache⟩, client, "a", ⟨"inbound", true⟩, ?_, hrequest, rfl,
      rfl⟩
    rw [hsame, harrivals, ← hlength, List.getElem?_concat_length]
  have hfollows := hcalled.tail hstep
  have hsucceeds := (removeUser_idempotent prostLaws userSet (hrun.trans hfollows)).ignoring
    hignoring hserved
  have hagain := (removeUser_idempotent prostLaws userSet (hrun.trans hcalled)).repeated
    (hasks.mono harrivals) (hkept 0 status hanswered) hstep hlog
  exact ⟨w, w', hrun, hfollows, hasks, hasks', hfinished, honce, hignoring, hsucceeds ▸ hserved,
    hagain.trans hstate, husers⟩

end XrayBridge
