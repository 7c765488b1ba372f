import XrayBridge.Lib.RemoteHistory
import XrayBridge.Lib.RemoteProgress
import XrayBridge.Proof.Plans
import XrayBridge.Proof.Server

/-! The program with the nodes that it calls, over a network that delays and loses what it carries:
what the requests see of each other and of the nodes. -/

namespace XrayBridge

open Platform RemoteCalls

/-- A node: what it may answer to a call, and the state that it is in then, and how its state
changes apart from calls. -/
structure Node where
  State : Type
  Serves : State → Metadata → (message : Rpc) → Except Status message.Reply → State → Prop
  Drifts : State → State → Prop

section

variable [Platform]

/-- How the transport reports that a call has failed.  It does not say that something is missing. -/
structure Transport where
  Fails : Status → Prop
  notMissing : ∀ status, Fails status → status.saysMissing = false

/-- The nodes, by the URIs of their channels. -/
abbrev Fleet := Uri → Node

def Node.object (node : Node) : Object Effect Effect.Answer where
  State := node.State
  Answers s e r s' :=
    match e, r with
    | .rpc request, r => node.Serves s request.metadata request.rpc r s'
    | .trace _, _ => False
  Moves := node.Drifts

def Effect.reaches : Effect → Uri → Prop
  | .rpc request, uri => request.channel.uri = uri
  | .trace _, _ => False

abbrev Fleet.object (fleet : Fleet) : Object Effect Effect.Answer :=
  .family (fun uri => (fleet uri).object) Effect.reaches

theorem Fleet.serves (fleet : Fleet) (state : fleet.object.State) {r : GrpcRequest}
    {reply : Except Status r.rpc.Reply} {s' : (fleet r.channel.uri).State}
    (h : (fleet r.channel.uri).Serves (state r.channel.uri) r.metadata r.rpc reply s') :
    ∃ after, fleet.object.Answers state (.rpc r) reply after ∧ after r.channel.uri = s' :=
  Object.family_answers (e := Effect.rpc r) rfl h

theorem Fleet.drifts (fleet : Fleet) (state : fleet.object.State) {uri : Uri}
    {s' : (fleet uri).State} (h : (fleet uri).Drifts (state uri) s') :
    ∃ after, fleet.object.Moves state after ∧ after uri = s' :=
  Object.exists_family_moves (k := uri) h

def Transport.link (transport : Transport) : Link Effect Effect.Answer where
  Local
    | .trace _ => True
    | .rpc _ => False
  Fails
    | .trace _, _ => False
    | .rpc _, r => ∃ status, transport.Fails status ∧ r = .error status

abbrev RequestTask := RemoteCalls.Task Arrival Effect Effect.Answer Response

/-- The program and its nodes.  Task number `i` is for request number `i`. -/
structure Deployment (fleet : Fleet) where
  cache : XrayClientCache
  system : System fleet.object Arrival Response

variable {fleet : Fleet} {settings : Settings} {transport : Transport}

/-- A step: a request arrives, or something happens to a task or a node. -/
inductive Deployment.Step (settings : Settings) (transport : Transport) :
    Deployment fleet → Deployment fleet → Prop where
  | arrive (d : Deployment fleet) (request : HttpRequest) :
      Step settings transport d ⟨(handle settings request d.cache).2,
        d.system.start ⟨request, d.cache⟩ (handle settings request d.cache).1⟩
  | step (d : Deployment fleet) {system : System fleet.object Arrival Response}
      (step : RemoteCalls.Step transport.link d.system system) :
      Step settings transport d { d with system }

/-- What the program with a cache of a capacity and its nodes come to from a state of the nodes. -/
def Deployment.Run (settings : Settings) (transport : Transport) (n : ℕ+)
    (state : fleet.object.State) (d : Deployment fleet) : Prop :=
  Relation.ReflTransGen (Deployment.Step settings transport) ⟨.new n, ⟨[], state⟩⟩ d

/-- A program that has just been started answers the request alone, and no call fails. -/
def HandledAlone (settings : Settings) (transport : Transport) (obj : Object Effect Effect.Answer)
    (request : HttpRequest) (state : obj.State) (response : Response) (state' : obj.State) : Prop :=
  Runs obj transport.link state (handle settings request (.new 1)).1 response state'

/-- What a request is for. -/
def requestSpec (settings : Settings) (transport : Transport) (obj : Object Effect Effect.Answer)
    (a : Arrival) : Spec obj Response where
  Acts := HandledAlone settings transport obj a.request
  Fails response :=
    ∃ status, transport.Fails status ∧ response = answerTo a.request (forwarded status)

theorem Plan.implements {plan : Plan} {forward : Status → Response} (h : plan.Forwards forward)
    {client client' : XrayClient} (hseen : client.seen = client'.seen) :
    Implements fleet.object transport.link
      { Acts := fun s a s' => Runs fleet.object transport.link s (plan.task client') a s'
        Fails := fun a => ∃ status, transport.Fails status ∧ a = forward status }
      (plan.task client) := by
  match plan with
  | .refuse none response => exact .done fun s => .done s response
  | .refuse (some event) response =>
    exact .answer trivial fun _ => .done fun s => .answer () trivial (.done s response)
  | .call event message respond =>
    have hrequest : (client.request message).metadata = (client'.request message).metadata ∧
        (client.request message).channel.uri = (client'.request message).channel.uri := by
      rw [XrayClient.seen, XrayClient.seen, Prod.mk.injEq] at hseen
      exact ⟨by rw [XrayClient.request, XrayClient.request, hseen.1], hseen.2⟩
    refine .answer trivial fun _ => .call ⟨id, fun {s s' r} answers => ?_, ?_⟩
    · refine .answer () trivial (.call id ?_ (.done s' _))
      obtain ⟨uri, hreaches, hanswers, hframe⟩ := answers
      refine ⟨uri, hrequest.2.symm.trans hreaches, ?_, hframe⟩
      show (fleet uri).Serves (s uri) (client'.request message).metadata message r (s' uri)
      rw [← hrequest.1]
      exact hanswers
    · rintro r ⟨status, hstatus, rfl⟩
      exact ⟨status, hstatus, h status (transport.notMissing status hstatus)⟩

theorem implements_handle (laws : LruLaws) {n : ℕ+} {cache : XrayClientCache}
    (hcache : Reachable n cache) (request : HttpRequest) :
    Implements fleet.object transport.link
      (requestSpec settings transport fleet.object ⟨request, cache⟩)
      (handle settings request cache).1 := by
  have hfresh : Reachable 1 (.new 1) := .new
  cases served laws settings request with
  | @refused response _ all =>
    rw [all n cache hcache]
    refine .done fun s => ?_
    show Runs _ _ s (handle settings request (.new 1)).1 response s
    rw [all 1 _ hfresh]
    exact .done s response
  | planned _ _ _ _ all =>
    obtain ⟨client, hclient, hhandle⟩ := all n cache hcache
    obtain ⟨client', hclient', hhandle'⟩ := all 1 _ hfresh
    have hseen : client.seen = client'.seen := by
      have h := nodeContext_ok_seen laws hcache hclient
      rw [nodeContext_ok_seen laws hfresh hclient'] at h
      exact (Option.some.inj h).symm
    rw [hhandle]
    refine (Plan.implements ((forwards_plan _ _ _).map _) hseen).mono (fun s a s' hruns => ?_)
      fun a => id
    show Runs _ _ s (handle settings request (.new 1)).1 a s'
    rw [hhandle']
    exact hruns

/-! ### Runs -/

theorem Deployment.Run.reachable {n : ℕ+} {state : fleet.object.State} {d : Deployment fleet}
    (h : d.Run settings transport n state) : Reachable n d.cache := by
  induction h with
  | refl => exact .new
  | tail _ hstep ih =>
    cases hstep with
    | arrive request => exact ih.handle settings request
    | step step => exact ih

/-- What the tasks come to is a run of the program: a call is one effect of a task, when its reply
or its failure comes back. -/
theorem Deployment.Run.server {n : ℕ+} {state : fleet.object.State} {d : Deployment fleet}
    (h : d.Run settings transport n state) :
    ∃ sent, Server.Run settings n
      ⟨d.cache, d.system.tasks.map (·.label), d.system.tasks.map (·.rest), sent⟩ := by
  induction h with
  | refl => exact ⟨[], .refl⟩
  | @tail d d' _ hstep ih =>
    obtain ⟨sent, hrun⟩ := ih
    cases hstep with
    | arrive request =>
      refine ⟨sent, hrun.tail ?_⟩
      simp only [System.start, List.map_append, List.map_cons, List.map_nil]
      exact .arrive _ request
    | step step =>
      cases step with
      | move moves => exact ⟨sent, hrun⟩
      | act i act =>
        obtain ⟨hlabels, hsame | ⟨e, next, r, htask, hset⟩⟩ := act.visible
        · refine ⟨sent, ?_⟩
          rw [hlabels, hsame]
          exact hrun
        · refine ⟨e.calls.map (i, ·) ++ sent, ?_⟩
          rw [hlabels, hset]
          exact hrun.tail (.act _ i e next r htask)

/-- A history that explains what the requests and the nodes have come to. -/
abbrev Deployment.Explained (settings : Settings) (transport : Transport)
    (state : fleet.object.State) (history : List (Entry Arrival Response)) (d : Deployment fleet) :
    Prop :=
  Explains transport.link (requestSpec settings transport fleet.object) state history d.system

/-- The response to request number `i`, if it has one and its call has not failed. -/
def Deployment.response (d : Deployment fleet) (i : Nat) : Option Response :=
  d.system.tasks[i]?.bind Task.result

theorem Deployment.Step.response {d d' : Deployment fleet}
    (h : Deployment.Step settings transport d d') {i : Nat} {response : Response}
    (hi : d.response i = some response) : d'.response i = some response := by
  obtain ⟨t, htask, hresult⟩ := Option.bind_eq_some_iff.mp hi
  cases h with
  | arrive request =>
    rw [Deployment.response, System.start,
      List.getElem?_append_left (List.getElem?_eq_some_iff.mp htask).1]
    exact hi
  | step step =>
    cases step with
    | move moves => exact hi
    | act j act =>
      obtain ⟨t', htask', -, hresult'⟩ := act.result_eq_some htask hresult
      exact Option.bind_eq_some_iff.mpr ⟨t', htask', hresult'⟩

theorem Deployment.response_of_steps {d d' : Deployment fleet}
    (h : Relation.ReflTransGen (Deployment.Step settings transport) d d') {i : Nat}
    {response : Response} (hi : d.response i = some response) : d'.response i = some response := by
  induction h with
  | refl => exact hi
  | tail _ hstep ih => exact hstep.response ih

theorem Deployment.Explained.step (laws : LruLaws) {n : ℕ+} {state : fleet.object.State}
    {history : List (Entry Arrival Response)} {d d' : Deployment fleet}
    (h : d.Explained settings transport state history) (hcache : Reachable n d.cache)
    (hstep : Deployment.Step settings transport d d') :
    ∃ new, d'.Explained settings transport state (new ++ history) ∧
      ∀ entry ∈ new, d.response entry.number = none := by
  cases hstep with
  | arrive request =>
    exact ⟨[], h.begin (implements_handle laws hcache request), fun _ hmem => by cases hmem⟩
  | step step =>
    obtain ⟨new, hnew, hopen⟩ := Explains.step h step
    refine ⟨new, hnew, fun entry hmem => ?_⟩
    obtain ⟨t, htask, hresult⟩ := hopen entry hmem
    rw [Deployment.response, htask, Option.bind_some, hresult]

theorem Deployment.Explained.steps (laws : LruLaws) {n : ℕ+} {state : fleet.object.State}
    {history : List (Entry Arrival Response)} {d d' : Deployment fleet}
    (h : d.Explained settings transport state history) (hrun : d.Run settings transport n state)
    (hsteps : Relation.ReflTransGen (Deployment.Step settings transport) d d') :
    ∃ new, d'.Explained settings transport state (new ++ history) ∧
      ∀ entry ∈ new, d.response entry.number = none := by
  induction hsteps with
  | refl => exact ⟨[], h, fun _ hmem => by cases hmem⟩
  | @tail d' d'' hsteps hstep ih =>
    obtain ⟨new, hnew, hopen⟩ := ih
    have hrun' : d'.Run settings transport n state := hrun.trans hsteps
    obtain ⟨newer, hnewer, hopen'⟩ := hnew.step laws hrun'.reachable hstep
    refine ⟨newer ++ new, by rwa [List.append_assoc], fun entry hmem => ?_⟩
    rcases List.mem_append.mp hmem with hmem | hmem
    · refine Option.eq_none_iff_forall_ne_some.mpr fun response hresponse => ?_
      have hlater := Deployment.response_of_steps hsteps hresponse
      rw [hopen' entry hmem] at hlater
      cases hlater
    · exact hopen entry hmem

theorem Deployment.Run.explained (laws : LruLaws) {n : ℕ+} {state : fleet.object.State}
    {d : Deployment fleet} (h : d.Run settings transport n state) :
    ∃ history, d.Explained settings transport state history := by
  obtain ⟨history, hhistory, -⟩ :=
    Deployment.Explained.steps laws (Explains.start _ _ state) .refl h
  exact ⟨_, hhistory⟩

/-! ### One request after another -/

/-- An order in which the requests could have been handled one after another, the latest first, each
by a program that has just been started, with the responses that they have had. -/
structure Deployment.Linearized (settings : Settings) (transport : Transport)
    (state : fleet.object.State) (history : List (Entry Arrival Response)) (d : Deployment fleet) :
    Prop where
  sequential : Sequential fleet.object
    (fun a => HandledAlone settings transport fleet.object a.request) state history d.system.state
  once : (history.map (·.number)).Nodup
  requests : ∀ entry ∈ history,
    ∃ t, d.system.tasks[entry.number]? = some t ∧ t.label = entry.label
  /-- A response is that of the history, or the request does nothing. -/
  answered : ∀ (i : Nat) (t : RequestTask) response, d.system.tasks[i]? = some t →
    t.result = some response →
    (∃ entry ∈ history, entry.number = i ∧ entry.result = response) ∨
      (∀ entry ∈ history, entry.number ≠ i) ∧
        ∀ s, HandledAlone settings transport fleet.object t.label.request s response s
  /-- A request whose call has failed is answered with the failure. -/
  failed : ∀ (i : Nat) (t : RequestTask), d.system.tasks[i]? = some t → t.failed = true →
    ∃ status, transport.Fails status ∧ t.rest = .done (answerTo t.label.request (forwarded status))

theorem Deployment.Explained.linearized {state : fleet.object.State}
    {history : List (Entry Arrival Response)} {d : Deployment fleet}
    (h : d.Explained settings transport state history) :
    d.Linearized settings transport state history where
  sequential := h.sequential
  once := h.once
  requests _ hmem := h.entries hmem
  answered i t response htask hresult := by
    rcases h.answered htask hresult with hone | ⟨hnone, hacts⟩
    · exact Or.inl (mem_resultsOf.mp (hone ▸ List.mem_singleton_self response))
    · refine Or.inr ⟨fun entry hmem hnumber => ?_, hacts⟩
      have hmem' := mem_resultsOf.mpr ⟨entry, hmem, hnumber, rfl⟩
      rw [hnone] at hmem'
      cases hmem'
  failed i t htask hfailed := by
    obtain ⟨a, hrest, status, hstatus, rfl⟩ := h.fails htask hfailed
    exact ⟨status, hstatus, hrest⟩

/-- At any two points of a run, the requests have been handled as if one after another, each by a
program that has just been started: at most once each, in an order that only grows, and that grows
by requests that had not been answered.  One that has been answered with the failure of its call
counts as not answered, and may still be handled. -/
theorem deployment_linearized (laws : LruLaws) {n : ℕ+} {state : fleet.object.State}
    {d d' : Deployment fleet} (h : d.Run settings transport n state)
    (hsteps : Relation.ReflTransGen (Deployment.Step settings transport) d d') :
    ∃ history new : List (Entry Arrival Response),
      d.Linearized settings transport state history ∧
      d'.Linearized settings transport state (new ++ history) ∧
      ∀ entry ∈ new, d.response entry.number = none := by
  obtain ⟨history, hhistory⟩ := h.explained laws
  obtain ⟨new, hnew, hopen⟩ := hhistory.steps laws h hsteps
  exact ⟨history, new, hhistory.linearized, hnew.linearized, hopen⟩

/-! ### One node among others -/

/-- The request is for the node at the URI. -/
def Names (request : HttpRequest) (uri : Uri) : Prop :=
  ∃ token, addressed request = some (token, uri)

theorem Names.unique {request : HttpRequest} {a b : Uri} (ha : Names request a)
    (hb : Names request b) : a = b := by
  obtain ⟨token, htoken⟩ := ha
  obtain ⟨token', htoken'⟩ := hb
  rw [htoken] at htoken'
  exact congrArg Prod.snd (Option.some.inj htoken')

theorem handle_asks (laws : LruLaws) {n : ℕ+} {cache : XrayClientCache} (hcache : Reachable n cache)
    {request : HttpRequest} {r : GrpcRequest}
    (h : (handle settings request cache).1.Asks (.rpc r)) : Names request r.channel.uri := by
  cases served laws settings request with
  | refused _ all =>
    rw [all n cache hcache] at h
    exact absurd h Dialogue.not_asks_done
  | planned _ _ _ _ all =>
    obtain ⟨client, hclient, hhandle⟩ := all n cache hcache
    rw [hhandle] at h
    obtain ⟨message, rfl⟩ := Plan.asks_task h
    exact ⟨client.token, nodeContext_ok_seen laws hcache hclient⟩

/-- A request that is handled alone does what it does to the node that it is for. -/
theorem HandledAlone.component (laws : LruLaws) {request : HttpRequest} {s s' : fleet.object.State}
    {response : Response} (h : HandledAlone settings transport fleet.object request s response s')
    (uri : Uri) :
    (Names request uri →
      HandledAlone settings transport (fleet uri).object request (s uri) response (s' uri)) ∧
    (¬Names request uri → s' uri = s uri) := by
  have hnames {e : Effect} {other : Uri}
      (hasks : (handle settings request (.new 1)).1.Asks e) (hreaches : e.reaches other) :
      Names request other := by
    cases e with
    | trace event => exact hreaches.elim
    | rpc r => exact hreaches ▸ handle_asks laws (.new (n := 1)) hasks
  have hcomponent {named : Uri} (hnamed : Names request named) :=
    Runs.component h (k := named) fun e other hasks hreaches =>
      (hnames hasks hreaches).unique hnamed
  constructor
  · exact fun hnamed => (hcomponent hnamed).1
  · intro hother
    by_cases hsome : ∃ named, Names request named
    · obtain ⟨named, hnamed⟩ := hsome
      refine (hcomponent hnamed).2 uri ?_
      rintro rfl
      exact hother hnamed
    · exact Runs.silent h (fun e other hasks hreaches => hsome ⟨other, hnames hasks hreaches⟩) uri

open Classical in
/-- In each run, what has become of a node is what the requests for it come to, handled one after
another as if there were no other node. -/
theorem deployment_isolated (laws : LruLaws) {n : ℕ+} {state : fleet.object.State}
    {d : Deployment fleet} (h : d.Run settings transport n state) :
    ∃ history, d.Linearized settings transport state history ∧
      ∀ uri, Sequential (fleet uri).object
        (fun a => HandledAlone settings transport (fleet uri).object a.request) (state uri)
        (history.filter fun entry => Names entry.label.request uri) (d.system.state uri) := by
  obtain ⟨history, hhistory⟩ := h.explained laws
  refine ⟨history, hhistory.linearized, fun uri => ?_⟩
  refine hhistory.linearized.sequential.component uri (fun a => decide (Names a.request uri)) ?_ ?_
  · intro a s response s' hnames hacts
    exact (HandledAlone.component laws hacts uri).1 (of_decide_eq_true hnames)
  · intro a s response s' hnames hacts
    exact (HandledAlone.component laws hacts uri).2 (of_decide_eq_false hnames)

/-! ### Ends -/

theorem within_handle_two (laws : LruLaws) {n : ℕ+} {cache : XrayClientCache}
    (hcache : Reachable n cache) (request : HttpRequest) :
    (handle settings request cache).1.Within (fun _ => True) (fun _ => 1) 2 := by
  cases served laws settings request with
  | @refused response _ all =>
    rw [all n cache hcache]
    exact Dialogue.within_done response
  | planned _ _ _ _ all =>
    obtain ⟨client, -, hhandle⟩ := all n cache hcache
    rw [hhandle]
    exact Plan.within_task _ client

/-- A run with `k` steps of tasks, among any number of requests that arrive and changes of nodes. -/
inductive Deployment.Steps (settings : Settings) (transport : Transport) (d : Deployment fleet) :
    Nat → Deployment fleet → Prop where
  | refl : Steps settings transport d 0 d
  | arrive {k : Nat} {d' : Deployment fleet} (request : HttpRequest)
      (before : Steps settings transport d k d') :
      Steps settings transport d k ⟨(handle settings request d'.cache).2,
        d'.system.start ⟨request, d'.cache⟩ (handle settings request d'.cache).1⟩
  | act {k i : Nat} {d' : Deployment fleet} {system : System fleet.object Arrival Response}
      (before : Steps settings transport d k d') (act : Act transport.link i d'.system system) :
      Steps settings transport d (k + 1) { d' with system }
  | move {k : Nat} {d' : Deployment fleet} {state : fleet.object.State}
      (before : Steps settings transport d k d')
      (moves : fleet.object.Moves d'.system.state state) :
      Steps settings transport d k { d' with system := { d'.system with state } }

theorem Deployment.Steps.steps {k : Nat} {d d' : Deployment fleet}
    (h : Deployment.Steps settings transport d k d') :
    Relation.ReflTransGen (Deployment.Step settings transport) d d' := by
  induction h with
  | refl => exact .refl
  | arrive request _ ih => exact ih.tail (.arrive _ request)
  | act _ act ih => exact ih.tail (.step _ (.act _ act))
  | move _ moves ih => exact ih.tail (.step _ (.move moves))

theorem Deployment.Steps.run {n : ℕ+} {state : fleet.object.State} {k : Nat} {d : Deployment fleet}
    (h : Deployment.Steps settings transport ⟨.new n, ⟨[], state⟩⟩ k d) :
    d.Run settings transport n state := h.steps

theorem Deployment.Steps.left (laws : LruLaws) {n : ℕ+} {state : fleet.object.State} {k : Nat}
    {d : Deployment fleet}
    (h : Deployment.Steps settings transport ⟨.new n, ⟨[], state⟩⟩ k d) :
    ∃ b, d.system.Left b ∧ k + b ≤ 5 * d.system.tasks.length := by
  induction h with
  | refl => exact ⟨0, System.left_nil state, Nat.le_refl 0⟩
  | arrive request before ih =>
    obtain ⟨b, hb, hk⟩ := ih
    refine ⟨_, hb.start (within_handle_two laws before.run.reachable request), ?_⟩
    simp only [System.start, List.length_append, List.length_singleton]
    omega
  | act before act ih =>
    obtain ⟨b, hb, hk⟩ := ih
    obtain ⟨hpos, hleft⟩ := act.left hb
    refine ⟨b - 1, hleft, ?_⟩
    rw [act.length_eq]
    omega
  | move _ _ ih => exact ih

/-- A task may have its event, its call and the reply while nothing else happens. -/
theorem exists_reply (settings : Settings) (transport : Transport) {d : Deployment fleet} {i : Nat}
    {a : Arrival} {client : XrayClient} {event : String} {message : Rpc}
    {respond : Except Status message.Reply → Response}
    (htask : d.system.tasks[i]? =
      some ⟨a, (Plan.call event message respond).task client, .idle, false⟩)
    {reply : Except Status message.Reply} {s' : (fleet client.channel.uri).State}
    (hserves : (fleet client.channel.uri).Serves (d.system.state client.channel.uri)
      (client.request message).metadata message reply s') :
    ∃ d', Deployment.Steps settings transport d 4 d' ∧ d'.cache = d.cache ∧
      d'.system.tasks = d.system.tasks.set i ⟨a, .done (respond reply), .closed, false⟩ ∧
      d'.system.state client.channel.uri = s' ∧
      ∀ uri, uri ≠ client.channel.uri → d'.system.state uri = d.system.state uri := by
  obtain ⟨after, hanswers, hafter⟩ :=
    Fleet.serves fleet d.system.state (r := client.request message) hserves
  have hframe : ∀ uri, uri ≠ client.channel.uri → after uri = d.system.state uri := by
    obtain ⟨uri, hreaches, -, hframe⟩ := hanswers
    obtain rfl : client.channel.uri = uri := hreaches
    exact hframe
  have hi := (List.getElem?_eq_some_iff.mp htask).1
  have hset (t : RequestTask) : (d.system.tasks.set i t)[i]? = some t := List.getElem?_set_self hi
  have htrace : Deployment.Steps settings transport d 1 _ :=
    .act .refl (.answer () htask rfl trivial)
  have hsend := htrace.act (.send (hset _) rfl id rfl)
  simp only [List.set_set] at hsend
  have hserve := hsend.act (.serve (hset _) rfl hanswers)
  simp only [List.set_set] at hserve
  have hdeliver := hserve.act (.deliver (hset _) rfl rfl)
  simp only [List.set_set] at hdeliver
  exact ⟨_, hdeliver, rfl, rfl, hafter, hframe⟩

theorem Deployment.Steps.trans {k m : Nat} {d d' d'' : Deployment fleet}
    (h : Deployment.Steps settings transport d k d')
    (h' : Deployment.Steps settings transport d' m d'') :
    Deployment.Steps settings transport d (k + m) d'' := by
  induction h' with
  | refl => exact h
  | arrive request _ ih => exact ih.arrive request
  | act _ act ih => exact ih.act act
  | move _ moves ih => exact ih.move moves

theorem exists_arrival (transport : Transport) (d : Deployment fleet) {request : HttpRequest}
    {rest : Grpc Response} (hhandle : (handle settings request d.cache).1 = rest) :
    ∃ d', Deployment.Steps settings transport d 0 d' ∧
      d'.cache = (handle settings request d.cache).2 ∧
      d'.system.tasks = d.system.tasks ++ [⟨⟨request, d.cache⟩, rest, .idle, false⟩] ∧
      d'.system.state = d.system.state := by
  subst hhandle
  exact ⟨_, .arrive request .refl, rfl, rfl, rfl⟩

/-- A node may change on its own while nothing else happens. -/
theorem exists_moved (settings : Settings) (transport : Transport) {d : Deployment fleet}
    {uri : Uri} {s' : (fleet uri).State} (hdrifts : (fleet uri).Drifts (d.system.state uri) s') :
    ∃ d', Deployment.Steps settings transport d 0 d' ∧ d'.cache = d.cache ∧
      d'.system.tasks = d.system.tasks ∧ d'.system.state uri = s' := by
  obtain ⟨after, hmoves, hafter⟩ := Fleet.drifts fleet d.system.state hdrifts
  exact ⟨_, .move .refl hmoves, rfl, rfl, hafter⟩

/-- A request may be answered as soon as it has arrived. -/
theorem exists_answered (transport : Transport) (d : Deployment fleet)
    {request : HttpRequest} {client : XrayClient} {event : String} {message : Rpc}
    {respond : Except Status message.Reply → Response}
    (hhandle : (handle settings request d.cache).1 =
      (Plan.call event message respond).task client)
    {reply : Except Status message.Reply} {s' : (fleet client.channel.uri).State}
    (hserves : (fleet client.channel.uri).Serves (d.system.state client.channel.uri)
      (client.request message).metadata message reply s') :
    ∃ d', Deployment.Steps settings transport d 4 d' ∧
      d'.cache = (handle settings request d.cache).2 ∧
      d'.system.tasks = d.system.tasks ++
        [⟨⟨request, d.cache⟩, .done (respond reply), .closed, false⟩] ∧
      d'.system.state client.channel.uri = s' := by
  obtain ⟨arrived, harrive, hcache, htasks, hstate⟩ := exists_arrival transport d hhandle
  rw [← hstate] at hserves
  obtain ⟨d', hsteps, hcache', htasks', hstate', -⟩ :=
    exists_reply settings transport (i := d.system.tasks.length)
      (by rw [htasks, List.getElem?_concat_length]) hserves
  refine ⟨d', by simpa using harrive.trans hsteps, hcache'.trans hcache, ?_, hstate'⟩
  rw [htasks', htasks]
  simp

/-- However the network and the nodes behave, a run has at most five steps of tasks a request; and
where the nodes answer every call and the transport can report a failure, each request can be
answered by steps of its own, without a failure if its call is not lost. -/
theorem deployment_finishes (laws : LruLaws) {n : ℕ+} {state : fleet.object.State} {k : Nat}
    {d : Deployment fleet}
    (h : Deployment.Steps settings transport ⟨.new n, ⟨[], state⟩⟩ k d) :
    k ≤ 5 * d.system.tasks.length ∧
    ((∀ uri s metadata message,
        ∃ reply s', (fleet uri).Serves s metadata message reply s') →
      (∃ status, transport.Fails status) →
      ∀ (i : Nat) (t : RequestTask), d.system.tasks[i]? = some t →
        ∃ failed, CanFinish transport.link i d.system failed ∧
          (t.wire ≠ .closed → t.failed = false → failed = false)) := by
  obtain ⟨b, -, hk⟩ := h.left laws
  obtain ⟨history, hhistory⟩ := h.run.explained laws
  refine ⟨by omega, fun hnodes hfails i t htask => hhistory.canFinish ?_ ?_ ?_ htask⟩
  · intro e hremote s
    cases e with
    | trace event => exact absurd trivial hremote
    | rpc request =>
      obtain ⟨reply, s', hserves⟩ :=
        hnodes request.channel.uri (s request.channel.uri) request.metadata request.rpc
      obtain ⟨after, hanswers, -⟩ := Fleet.serves fleet s hserves
      exact ⟨reply, after, hanswers⟩
  · intro e hlocal
    cases e with
    | trace event => exact ⟨()⟩
    | rpc request => exact hlocal.elim
  · intro e hremote
    cases e with
    | trace event => exact absurd trivial hremote
    | rpc request =>
      obtain ⟨status, hstatus⟩ := hfails
      exact ⟨.error status, status, hstatus, rfl⟩

end

open Reference

/-- A node that counts its calls, answers those for its system with the count, and has no other
services. -/
inductive Counting :
    Nat → Metadata → (message : Rpc) → Except Status message.Reply → Nat → Prop where
  | stats (calls : Nat) (metadata : Metadata) :
      Counting calls metadata .getSysStats
        (.ok ({ numGoroutine := UInt32.ofNat calls } : SysStatsResponse)) (calls + 1)
  | other (calls : Nat) (metadata : Metadata) (message : Rpc) :
      Counting calls metadata message (.error ⟨.unimplemented, ""⟩) (calls + 1)

def countingNode : Node := ⟨Nat, Counting, fun _ _ => False⟩

def unavailable : Transport where
  Fails status := status = ⟨.unavailable, "connection refused"⟩
  notMissing := by
    rintro _ rfl
    simp [Status.saysMissing]

def countingFleet : Fleet := fun _ => countingNode

def noCalls : countingFleet.object.State := fun _ => (0 : Nat)

def Deployment.calls (d : Deployment countingFleet) (uri : Reference.Uri) : Nat :=
  d.system.state uri

/-- The response to a request for the system of a node that has had the calls. -/
def sysResponse (calls : Nat) : Response :=
  okJson (StatsService.SysStats.toJson ⟨UInt32.ofNat calls, 0, 0, 0, 0, 0, 0, 0, 0, 0⟩)

theorem exists_sysReply {d : Deployment countingFleet} {i : Nat} {a : Arrival}
    {client : XrayClient}
    (htask : d.system.tasks[i]? =
      some ⟨a, toResponse (getSysStatsHandler.run client () ()), .idle, false⟩) :
    ∃ d' : Deployment countingFleet, Deployment.Steps ⟨"secret", 8080⟩ unavailable d 4 d' ∧
      d'.system.tasks = d.system.tasks.set i
        ⟨a, .done (sysResponse (d.calls client.channel.uri)), .closed, false⟩ ∧
      d'.calls client.channel.uri = d.calls client.channel.uri + 1 ∧
      ∀ uri, uri ≠ client.channel.uri → d'.calls uri = d.calls uri := by
  have hplan : toResponse (getSysStatsHandler.run client () ()) =
      (Endpoint.plan .getSysStats () ()).task client :=
    toResponse_run .getSysStats client () ()
  rw [hplan] at htask
  obtain ⟨d', hsteps, -, htasks, hstate, hframe⟩ :=
    exists_reply ⟨"secret", 8080⟩ unavailable htask (Counting.stats _ _)
  exact ⟨d', hsteps, htasks, hstate, hframe⟩

/-- Two requests, the second of which is answered first. -/
theorem exists_sysRun (n : ℕ+) {x y : String} {seen seen' : String × Reference.Uri}
    (hx : addressed (sysRequest "secret" x) = some seen)
    (hy : addressed (sysRequest "secret" y) = some seen') :
    ∃ d d' : Deployment countingFleet,
      Deployment.Steps ⟨"secret", 8080⟩ unavailable ⟨.new n, ⟨[], noCalls⟩⟩ 4 d ∧
      Deployment.Steps ⟨"secret", 8080⟩ unavailable d 4 d' ∧
      d.response 0 = none ∧ d.response 1 = some (sysResponse 0) ∧
      d'.response 0 = some (sysResponse (if seen.2 = seen'.2 then 1 else 0)) := by
  obtain ⟨client, hclient, rfl⟩ := exists_client_of_addressed lruLaws (Reachable.new (n := n)) hx
  obtain ⟨one, hone, hcache, htasks, hstate⟩ := exists_arrival unavailable
    (⟨.new n, ⟨[], noCalls⟩⟩ : Deployment countingFleet) (handle_sysRequest hclient)
  have hreachable : Reachable n one.cache := hcache ▸ Reachable.new.handle _ _
  obtain ⟨client', hclient', rfl⟩ := exists_client_of_addressed lruLaws hreachable hy
  obtain ⟨two, htwo, -, htasks', hstate'⟩ :=
    exists_arrival unavailable one (handle_sysRequest hclient')
  have hnone (uri : Reference.Uri) : two.calls uri = 0 := by
    rw [Deployment.calls, hstate', hstate]
    rfl
  obtain ⟨d, hfirst, hd, hcalls, hframe⟩ :=
    exists_sysReply (d := two) (i := 1) (by rw [htasks', htasks]; rfl)
  obtain ⟨d', hsecond, hd', -, -⟩ :=
    exists_sysReply (d := d) (i := 0) (by rw [hd, htasks', htasks]; rfl)
  refine ⟨d, d', by simpa using (hone.trans htwo).trans hfirst, hsecond, ?_, ?_, ?_⟩
  · rw [Deployment.response, hd, htasks', htasks]
    rfl
  · rw [Deployment.response, hd, htasks', htasks, hnone]
    rfl
  · rw [Deployment.response, hd', hd, htasks', htasks]
    show some (sysResponse (d.calls client.channel.uri)) = _
    split
    · next hsame =>
      have huri : client.channel.uri = client'.channel.uri := hsame
      rw [huri, hcalls, hnone]
    · next hother =>
      have huri : client.channel.uri ≠ client'.channel.uri := hother
      rw [hframe _ huri, hnone]

theorem addressed_sysRequest_a :
    addressed (sysRequest "secret" "a.example") = some ("t", ⟨"a.example", 443⟩) := by
  rfl

theorem addressed_sysRequest_b :
    addressed (sysRequest "secret" "b.example") = some ("t", ⟨"b.example", 443⟩) := by
  rfl

/-- Two requests for one node: at the first point only the second one has been answered, at the
second point the first one too. -/
theorem deployment_linearized_sys :
    ∃ (d d' : Deployment countingFleet) (history new : List (Entry Arrival Response)),
      d.response 0 = none ∧ d.response 1 = some (sysResponse 0) ∧
      d'.response 0 = some (sysResponse 1) ∧
      d.Linearized ⟨"secret", 8080⟩ unavailable noCalls history ∧
      d'.Linearized ⟨"secret", 8080⟩ unavailable noCalls (new ++ history) ∧
      ∀ entry ∈ new, d.response entry.number = none := by
  obtain ⟨d, d', hfirst, hsecond, hopen, hresponse, hresponse'⟩ :=
    exists_sysRun 1 addressed_sysRequest_a addressed_sysRequest_a
  rw [if_pos rfl] at hresponse'
  obtain ⟨history, new, hhistory⟩ := deployment_linearized lruLaws hfirst.run hsecond.steps
  exact ⟨d, d', history, new, hopen, hresponse, hresponse', hhistory⟩

open Classical in
/-- Requests for two nodes, each of which has had one call, of a program that keeps one client. -/
theorem deployment_isolated_sys :
    ∃ (d : Deployment countingFleet) (history : List (Entry Arrival Response)),
      d.response 0 = some (sysResponse 0) ∧ d.response 1 = some (sysResponse 0) ∧
      d.Linearized ⟨"secret", 8080⟩ unavailable noCalls history ∧
      ∀ uri, Sequential countingNode.object
        (fun a => HandledAlone ⟨"secret", 8080⟩ unavailable countingNode.object a.request) (0 : Nat)
        (history.filter fun entry => Names entry.label.request uri) (d.calls uri) := by
  obtain ⟨d, d', hfirst, hsecond, -, hresponse, hresponse'⟩ :=
    exists_sysRun 1 addressed_sysRequest_a addressed_sysRequest_b
  rw [if_neg (by decide)] at hresponse'
  obtain ⟨history, hhistory⟩ := deployment_isolated lruLaws (hfirst.trans hsecond).run
  exact ⟨d', history, hresponse', Deployment.response_of_steps hsecond.steps hresponse, hhistory⟩

/-- The first of two requests, which has not been answered, can be answered. -/
theorem deployment_finishes_sys :
    ∃ d : Deployment countingFleet, d.response 0 = none ∧ d.response 1 = some (sysResponse 0) ∧
      4 ≤ 5 * d.system.tasks.length ∧ ∃ failed, CanFinish unavailable.link 0 d.system failed := by
  obtain ⟨d, -, hfirst, -, hopen, hresponse, -⟩ :=
    exists_sysRun 1 addressed_sysRequest_a addressed_sysRequest_a
  obtain ⟨t, htask, -⟩ := Option.bind_eq_some_iff.mp hresponse
  have hlength := (List.getElem?_eq_some_iff.mp htask).1
  obtain ⟨hbound, hfinishes⟩ := deployment_finishes lruLaws hfirst
  obtain ⟨failed, hfinish, -⟩ := hfinishes
    (fun uri calls metadata message => ⟨_, _, Counting.other calls metadata message⟩) ⟨_, rfl⟩
    0 _ (List.getElem?_eq_getElem (by omega))
  exact ⟨d, hopen, hresponse, hbound, failed, hfinish⟩

end XrayBridge
