import Mathlib.Algebra.Order.Ring.Int
import XrayBridge.Proof.Counters
import XrayBridge.Proof.RealTime

/-! Counters that are reset as they are read: no traffic is reported twice, and all that a node has
taken from a counter is reported unless an answer is lost or has no body; and what is read without a
reset does not go back. -/

namespace XrayBridge

open Platform RemoteCalls StatsService

/-! ### Readings -/

/-- The value of a counter, by its name. -/
abbrev Reading := String × Int

/-- What readings say of a counter. -/
def amount (name : String) (readings : List Reading) : Int :=
  ((readings.filter (·.1 = name)).map (·.2)).sum

theorem amount_singleton_zero (name counter : String) : amount name [(counter, 0)] = 0 := by
  by_cases h : counter = name <;> simp [amount, h]

def Json.asInt : Json → Option Int
  | .int value => some value
  | _ => none

/-- The readings in a record of a counter or of a user's traffic. -/
def Json.record (document : Json) : List Reading :=
  match (document.get "name").bind asStr, (document.get "email").bind asStr with
  | some name, _ => ((document.get "value").bind asInt).toList.map (name, ·)
  | none, some email => metrics.filterMap fun metric =>
    ((document.get metric).bind asInt).map (trafficName email metric, ·)
  | none, none => []

def Json.readings : Json → List Reading
  | .arr elems => elems.flatMap record
  | document => document.record

def Response.readings (response : Response) : List Reading :=
  match response.body with
  | .json document => document.readings
  | _ => []

/-- The readings in a user's traffic. -/
def UserStat.readings (u : UserStat) : List Reading :=
  let traffic := UserTraffic.ofUserStat u
  [(trafficName traffic.email "uplink", traffic.uplink),
    (trafficName traffic.email "downlink", traffic.downlink)]

def Rpc.readings : (message : Rpc) → message.Reply → List Reading
  | .getStats name _, (stat : Option Stat) => [(name, (stat.map (·.value)).getD 0)]
  | .queryStats _ _, (stats : List Stat) => stats.map fun s => (s.name, s.value)
  | .getUsersStats _ _, (users : List UserStat) => users.flatMap UserStat.readings
  | _, _ => []

/-- The counters that a call reads are to be reset. -/
def Rpc.resets : Rpc → Bool
  | .getStats _ reset | .queryStats _ reset | .getUsersStats _ reset => reset
  | _ => false

theorem Response.Plain.readings {response : Response} (h : response.Plain) :
    response.readings = [] := by
  unfold Response.readings
  split
  · rename_i document hbody
    have hname : document.get "name" = none := h.get hbody (by decide)
    have hemail : document.get "email" = none := h.get hbody (by decide)
    obtain ⟨fields, rfl, -⟩ := h document hbody
    show Json.record _ = []
    rw [Json.record, hname, hemail]
    rfl
  · rfl

theorem readings_withoutBody (response : Response) : response.withoutBody.readings = [] := rfl

/-! ### Plans and requests -/

/-- A response to a call that resets counters has the readings of the reply, and that to a failure
has nothing to add. -/
def Plan.Shows : Plan → Prop
  | .refuse _ _ => True
  | .call _ message respond =>
    message.resets = true →
      (∀ reply, (respond (.ok reply)).readings = message.readings reply) ∧
        ∀ status name, amount name (respond (.error status)).readings = 0

theorem shows_of_message {plan : Plan} (h : plan.message.any Rpc.resets = false) : plan.Shows := by
  match plan with
  | .refuse event response => trivial
  | .call event message respond =>
    intro hresets
    have h : message.resets = false := h
    rw [h] at hresets
    cases hresets

theorem readings_users (users : List UserStat) :
    (okJson (.arr ((users.map UserTraffic.ofUserStat).map UserTraffic.toJson))).readings =
      users.flatMap UserStat.readings := by
  show ((users.map UserTraffic.ofUserStat).map UserTraffic.toJson).flatMap Json.record = _
  rw [List.map_map, List.flatMap_map]
  rfl

theorem readings_stats (stats : List Stat) :
    (okJson (.arr ((stats.map StatRecord.ofStat).map StatRecord.toJson))).readings =
      stats.map fun s => (s.name, s.value) := by
  show ((stats.map StatRecord.ofStat).map StatRecord.toJson).flatMap Json.record = _
  rw [List.map_map, List.flatMap_map]
  exact List.flatMap_pure_eq_map (fun s : Stat => (s.name, s.value)) stats

theorem readings_map {α : Type} (elems : List α) {elem : α → Json} (h : ∀ a, (elem a).record = []) :
    (okJson (.arr (elems.map elem))).readings = [] := by
  refine List.flatMap_eq_nil_iff.mpr fun document hmem => ?_
  obtain ⟨a, -, rfl⟩ := List.mem_map.mp hmem
  exact h a

theorem readings_answerTo {request : HttpRequest} {response : Response} :
    (answerTo request response).readings ⊆ response.readings := by
  unfold answerTo
  split
  · exact List.nil_subset _
  · exact List.Subset.refl _

section

variable [Platform]

theorem amount_intoResponse (e : AppError) (name : String) :
    amount name e.intoResponse.readings = 0 := by
  rw [(plain_intoResponse e).readings]
  rfl

theorem resets_configPlan {C : Type} {action event : String} {convert : Json → Except AppError C}
    {message : C → Rpc} {config : Json} (h : ∀ c, (message c).resets = false) :
    (configPlan action event convert message config).message.any Rpc.resets = false := by
  unfold configPlan
  split
  · rfl
  · split
    · rfl
    · exact h _

theorem shows_respondWith {event : String} {message : Rpc} {read : message.Reply → Response}
    (h : ∀ reply, (read reply).readings = message.readings reply) :
    (Plan.call event message (respondWith read)).Shows :=
  fun _ => ⟨h, fun status name => amount_intoResponse (.ofStatus status) name⟩

theorem shows_plan (e : Endpoint) (params : e.handler.Params) (body : e.handler.Body) :
    (e.plan params body).Shows := by
  cases e with
  | getUsersStats => exact shows_respondWith readings_users
  | queryStats => exact shows_respondWith readings_stats
  | getStat =>
    refine fun _ => ⟨fun _ => rfl, fun status name => ?_⟩
    show amount name
      (if status.saysMissing then statValue params.1 0 else forwarded status).readings = 0
    split
    · exact amount_singleton_zero name params.1
    · exact amount_intoResponse _ name
  | addUser =>
    refine shows_of_message ?_
    show (addUserPlan body).message.any Rpc.resets = false
    unfold addUserPlan
    split <;> rfl
  | addInbound | addOutbound => exact shows_of_message (resets_configPlan fun _ => rfl)
  | _ => exact shows_of_message rfl

/-- What the answer says of counters is what the reply says, or that a counter is missing. -/
def Plan.Reads : Plan → Prop
  | .refuse _ response => response.readings = []
  | .call _ message respond =>
    (∀ reply, (respond (.ok reply)).readings ⊆ message.readings reply) ∧
      ∀ status, ∀ reading ∈ (respond (.error status)).readings, ∃ name reset,
        message = .getStats name reset ∧ status.saysMissing = true ∧ reading = (name, 0)

def HttpRequest.resets (request : HttpRequest) : Bool := request.message.any Rpc.resets

/-! ### Nodes and runs -/

/-- The node takes from the counter what it says when it resets the counter; `taken` is what it has
taken so far. -/
structure Metered (node : Node) (name : String) (taken : node.State → Int) : Prop where
  drifts {s s' : node.State} (h : node.Drifts s s') : taken s' = taken s
  failed {s s' : node.State} {metadata : Metadata} {message : Rpc} {status : Status}
    (h : node.Serves s metadata message (.error status) s') : taken s' = taken s
  read {s s' : node.State} {metadata : Metadata} {message : Rpc} {reply : message.Reply}
    (h : node.Serves s metadata message (.ok reply) s') (resets : message.resets = false) :
    taken s' = taken s
  reset {s s' : node.State} {metadata : Metadata} {message : Rpc} {reply : message.Reply}
    (h : node.Serves s metadata message (.ok reply) s') (resets : message.resets = true) :
    taken s' = amount name (message.readings reply) + taken s ∧
      0 ≤ amount name (message.readings reply)

/-- What the response to a request that resets counters says of a counter. -/
def reportedBy (name : String) (request : HttpRequest) (response : Response) : Int :=
  if request.resets then amount name response.readings else 0

/-- What is taken from a counter is reported, or there is no body for it. -/
theorem Handled.metered (laws : RejectionLaws) {node : Node} {name : String}
    {taken : node.State → Int} (metered : Metered node name taken) {request : HttpRequest}
    {s s' : node.State} {response : Response} (h : Handled node request s response s') :
    ∃ amount, taken s' = amount + taken s ∧ 0 ≤ amount ∧
      (reportedBy name request response = amount ∨
        reportedBy name request response = 0 ∧ request.resets = true ∧ request.method = .head) := by
  have hsame {response : Response} {s' : node.State} (htaken : taken s' = taken s)
      (hreported : reportedBy name request response = 0) :
      ∃ amount, taken s' = amount + taken s ∧ 0 ≤ amount ∧
        (reportedBy name request response = amount ∨
          reportedBy name request response = 0 ∧ request.resets = true ∧ request.method = .head) :=
    ⟨0, by rw [htaken, zero_add], le_rfl, Or.inl hreported⟩
  cases h with
  | refused refusal =>
    refine hsame rfl ?_
    rw [reportedBy, (refusal.plain laws).readings]
    exact ite_self 0
  | @planned e params body _ _ arguments carried =>
    have hmessage := arguments.message
    have hshows := shows_plan e params body
    generalize e.plan params body = plan at hmessage hshows carried
    cases carried with
    | refuse event response =>
      refine hsame rfl (if_neg ?_)
      rw [HttpRequest.resets, hmessage]
      exact Bool.false_ne_true
    | @call event message respond metadata reply _ serves =>
      have hresets : request.resets = message.resets := by
        rw [HttpRequest.resets, hmessage]
        rfl
      cases hread : message.resets with
      | false =>
        have hnone : ¬request.resets = true := by
          rw [hresets, hread]
          exact Bool.false_ne_true
        cases reply with
        | error status => exact hsame (metered.failed serves) (if_neg hnone)
        | ok reply => exact hsame (metered.read serves hread) (if_neg hnone)
      | true =>
        obtain ⟨hok, herror⟩ := hshows hread
        have hreported (response : Response) :
            reportedBy name request response = amount name response.readings :=
          if_pos (hresets.trans hread)
        by_cases hhead : request.method = .head
        · have hnothing (response : Response) :
              reportedBy name request (answerTo request response) = 0 := by
            rw [hreported, answerTo, if_pos hhead, readings_withoutBody]
            rfl
          cases reply with
          | error status => exact hsame (metered.failed serves) (hnothing _)
          | ok reply =>
            obtain ⟨htaken, hnonneg⟩ := metered.reset serves hread
            exact ⟨_, htaken, hnonneg, Or.inr ⟨hnothing _, hresets.trans hread, hhead⟩⟩
        · rw [answerTo_of_ne hhead]
          cases reply with
          | error status =>
            exact hsame (metered.failed serves) ((hreported _).trans (herror status name))
          | ok reply =>
            obtain ⟨htaken, hnonneg⟩ := metered.reset serves hread
            exact ⟨_, htaken, hnonneg, Or.inl (by rw [hreported, hok])⟩

variable {fleet : Fleet} {settings : Settings} {transport : Transport}

/-- What the responses so far to the requests for a node say of a counter. -/
noncomputable def Deployment.reported (d : Deployment fleet) (uri : Uri) (name : String) : Int :=
  (d.system.tasks.map (Task.gained (Deployment.gained uri (reportedBy name)))).sum

/-- In each run, the responses so far report no more of a counter than its node has taken from it,
and all of it if each request that resets counters has been answered, with a body and without the
failure of its call. -/
theorem readings_add_up (laws : LruLaws) (rejections : RejectionLaws) {n : ℕ+}
    {state : fleet.object.State} {d : Deployment fleet} (h : d.Run settings transport n state)
    {uri : Uri} {name : String} {taken : (fleet uri).State → Int}
    (metered : Metered (fleet uri) name taken) :
    d.reported uri name + taken (state uri) ≤ taken (d.system.state uri) ∧
    ((∀ t ∈ d.system.tasks, Names t.label.request uri → t.label.request.resets = true →
        t.label.request.method ≠ .head ∧ t.result.isSome) →
      d.reported uri name + taken (state uri) = taken (d.system.state uri)) := by
  constructor
  · refine h.account_le laws uri taken (reportedBy name)
      (fun s s' hdrift => (metered.drifts hdrift).ge) fun t _ _ s response s' hhandled => ?_
    obtain ⟨amount, htaken, hnonneg, heq | ⟨hnone, -⟩⟩ := hhandled.metered rejections metered
    · rw [heq, htaken]
      exact ⟨hnonneg, le_rfl⟩
    · rw [hnone, htaken]
      exact ⟨le_rfl, by omega⟩
  · intro answered
    refine (h.account laws uri taken (reportedBy name) (fun s s' => metered.drifts)
      (fun t ht hnames s response s' hhandled => ?_) fun t ht hnames hnone response => ?_).symm
    · obtain ⟨amount, htaken, -, heq | ⟨-, hresets, hhead⟩⟩ :=
        hhandled.metered rejections metered
      · rw [heq, htaken]
      · exact absurd hhead (answered t ht hnames hresets).1
    · refine if_neg fun hresets => ?_
      have hsome := (answered t ht hnames hresets).2
      rw [hnone] at hsome
      cases hsome

/-! ### Readings over time -/

theorem readings_intoResponse (e : AppError) : e.intoResponse.readings = [] :=
  (plain_intoResponse e).readings

theorem reads_respondWith {event : String} {message : Rpc} {read : message.Reply → Response}
    (h : ∀ reply, (read reply).readings ⊆ message.readings reply) :
    (Plan.call event message (respondWith read)).Reads := by
  refine ⟨h, fun status reading hmem => ?_⟩
  have hnone : (respondWith read (.error status)).readings = [] :=
    readings_intoResponse (.ofStatus status)
  rw [hnone] at hmem
  cases hmem

theorem reads_silent {event : String} {message : Rpc} {read : message.Reply → Response}
    (h : ∀ reply, (read reply).readings = []) :
    (Plan.call event message (respondWith read)).Reads :=
  reads_respondWith fun reply => by
    rw [h reply]
    exact List.nil_subset _

theorem reads_configPlan {C : Type} {action event : String} {convert : Json → Except AppError C}
    {message : C → Rpc} {config : Json} :
    (configPlan action event convert message config).Reads := by
  unfold configPlan
  split
  · exact readings_intoResponse _
  · split
    · exact readings_intoResponse _
    · exact reads_silent fun _ => rfl

theorem readings_removeUserResponse (email : String) (q : RemoveUserQuery) (status : Status) :
    (removeUserResponse email q (.error status)).readings = [] := by
  unfold removeUserResponse
  dsimp only
  split
  · rfl
  · exact readings_intoResponse _

theorem reads_plan (e : Endpoint) (params : e.handler.Params) (body : e.handler.Body) :
    (e.plan params body).Reads := by
  cases e with
  | listUsers => exact reads_silent fun _ => readings_map _ fun _ => rfl
  | getOnlineUsers => exact reads_silent fun _ => readings_map _ fun _ => rfl
  | getUsersStats => exact reads_respondWith fun users reading =>
      (congrArg (reading ∈ ·) (readings_users users)).mp
  | queryStats => exact reads_respondWith fun stats reading =>
      (congrArg (reading ∈ ·) (readings_stats stats)).mp
  | getStat =>
    refine ⟨fun _ => List.Subset.refl _, fun status reading hmem => ?_⟩
    have hmem : reading ∈
        (if status.saysMissing then statValue params.1 0 else forwarded status).readings := hmem
    split at hmem
    · rename_i hmissing
      exact ⟨_, _, rfl, hmissing, List.mem_singleton.mp hmem⟩
    · have hnone : (forwarded status).readings = [] := readings_intoResponse _
      rw [hnone] at hmem
      cases hmem
  | addUser =>
    show (addUserPlan body).Reads
    unfold addUserPlan
    split
    · exact readings_intoResponse _
    · exact reads_silent fun _ => rfl
  | removeUser =>
    refine ⟨fun _ => List.Subset.refl [], fun status reading hmem => ?_⟩
    have hnone := readings_removeUserResponse params.1 params.2 status
    exact absurd hmem (List.eq_nil_iff_forall_not_mem.mp hnone reading)
  | addInbound | addOutbound => exact reads_configPlan
  | listInbounds => exact reads_silent fun _ => readings_map _ fun _ => rfl
  | listOutbounds => exact reads_silent fun _ => readings_map _ fun _ => rfl
  | listRules => exact reads_silent fun _ => readings_map _ fun _ => rfl
  | _ => exact reads_silent fun _ => rfl

/-- The counter does not fall but when it is reset, and the node says what it is. -/
structure Growing (node : Node) (name : String) (value : node.State → Int) : Prop where
  drifts {s s' : node.State} (h : node.Drifts s s') : value s ≤ value s'
  serves {s s' : node.State} {metadata : Metadata} {message : Rpc}
    {reply : Except Status message.Reply} (h : node.Serves s metadata message reply s')
    (kept : message.resets = false) : value s ≤ value s'
  reads {s s' : node.State} {metadata : Metadata} {message : Rpc} {reply : message.Reply} {v : Int}
    (h : node.Serves s metadata message (.ok reply) s') (mem : (name, v) ∈ message.readings reply) :
    v = value s
  missing {s s' : node.State} {metadata : Metadata} {reset : Bool} {status : Status}
    (h : node.Serves s metadata (.getStats name reset) (.error status) s')
    (missing : status.saysMissing = true) : value s = 0

/-- What a response says of a counter is its value when the request is handled. -/
theorem Handled.reading (laws : RejectionLaws) {node : Node} {name : String}
    {value : node.State → Int} (growing : Growing node name value) {request : HttpRequest}
    {s s' : node.State} {response : Response} (h : Handled node request s response s') {v : Int}
    (hread : (name, v) ∈ response.readings) : v = value s := by
  cases h with
  | refused refusal =>
    rw [(refusal.plain laws).readings] at hread
    cases hread
  | @planned e params body _ _ arguments carried =>
    have hreads := reads_plan e params body
    generalize e.plan params body = plan at hreads carried
    cases carried with
    | refuse event response =>
      have hread := readings_answerTo hread
      have hnone : response.readings = [] := hreads
      rw [hnone] at hread
      cases hread
    | @call event message respond metadata reply _ serves =>
      have hread := readings_answerTo hread
      cases reply with
      | ok reply => exact growing.reads serves (hreads.1 reply hread)
      | error status =>
        obtain ⟨name', reset, rfl, hmissing, heq⟩ := hreads.2 status _ hread
        obtain ⟨rfl, rfl⟩ := Prod.mk.inj heq
        exact (growing.missing serves hmissing).symm

end

open Reference

/-- A node with the counter `a`: its value, and what has been taken from it. -/
inductive Metering : Int × Int → Metadata → (message : Rpc) → Except Status message.Reply →
    Int × Int → Prop where
  | resets {value : Int} (taken : Int) (metadata : Metadata) (nonneg : 0 ≤ value) :
      Metering (value, taken) metadata (.getStats "a" true) (.ok (some ({ value } : Stat)))
        (0, value + taken)
  | refuses (state : Int × Int) (metadata : Metadata) (message : Rpc) (status : Status) :
      Metering state metadata message (.error status) state

def counterNode : Node := ⟨Int × Int, Metering, fun s s' => s.1 ≤ s'.1 ∧ s'.2 = s.2⟩

def counterFleet : Fleet := fun _ => counterNode

def fiveEach : counterFleet.object.State := fun _ => ((5, 0) : Int × Int)

theorem metered_counterNode : Metered counterNode "a" Prod.snd where
  drifts h := h.2
  failed h := by
    cases h
    rfl
  read h resets := by
    cases h
    cases resets
  reset h _ := by
    cases h with
    | @resets value taken metadata nonneg =>
      have hamount : amount "a" [("a", value)] = value := by simp [amount]
      exact ⟨congrArg (· + taken) hamount.symm, nonneg.trans_eq hamount.symm⟩

/-- A request for the counter that resets it. -/
def resetRequest : HttpRequest where
  method := .get
  path := ResourceOperation.getStat.collection ++ "/" ++ "a"
  query := "reset=true"
  headers := [("authorization", utf8 "Bearer secret"), ("x-node-domain", utf8 "a.example"),
    ("x-node-token", utf8 "t")]
  body := []

theorem addresses_counter : Addresses .getStat "a" "a" :=
  have hencoded : EncodedInto .getStat "a" "a" :=
    ⟨PercentCoding.encodes_self (by decide), fun h => absurd rfl h⟩
  hencoded.addresses routeLaws (by decide) (by decide)

theorem arguments_counter {request : HttpRequest} {reset : Bool}
    (hmethod : request.method = resetRequest.method) (hpath : request.path = resetRequest.path)
    (hquery : ∀ captures, query ResetQuery.deserialize ⟨request, captures⟩ = .ok ⟨reset⟩) :
    ∃ captures, dispatch request.method request.path = .ok (.endpoint .getStat, captures) ∧
      Endpoint.getStat.handler.params ⟨request, captures⟩ =
        .ok (("a", ⟨reset⟩) : String × ResetQuery) := by
  obtain ⟨captures, hdispatch, hname⟩ := addresses_counter
  refine ⟨captures, ?_, ?_⟩
  · rw [hmethod, hpath]
    exact hdispatch
  · show (do return (← path _, ← query ResetQuery.deserialize _) : Except Abort _) = _
    rw [hname, hquery]
    rfl

theorem arguments_resetRequest :
    ∃ captures,
      dispatch resetRequest.method resetRequest.path = .ok (.endpoint .getStat, captures) ∧
      Endpoint.getStat.handler.params ⟨resetRequest, captures⟩ =
        .ok (("a", ⟨true⟩) : String × ResetQuery) := by
  refine arguments_counter rfl rfl fun captures => ?_
  have hpairs : Platform.formPairs resetRequest.query = [("reset", "true")] := by decide +kernel
  rw [query, hpairs]
  rfl

/-- The counter is reset, grows by two, and is reset again. -/
theorem exists_resetRun :
    ∃ d : Deployment counterFleet, d.Run ⟨"secret", 8080⟩ unavailable 1 fiveEach ∧
      d.system.tasks.map Task.result = [some (statValue "a" 5), some (statValue "a" 2)] ∧
      (∀ t ∈ d.system.tasks, t.label.request = resetRequest) ∧
      d.system.state (⟨"a.example", 443⟩ : Reference.Uri) = ((0, 7) : Int × Int) := by
  obtain ⟨captures, hdispatch, hparams⟩ := arguments_resetRequest
  have hauth : bearerAuth ⟨"secret", 8080⟩ resetRequest.headers = .ok () := rfl
  have hclient : (nodeContext resetRequest.headers (.new 1)).1 = .ok nodeClient := rfl
  obtain ⟨one, hone, hcache, htasks, hstate⟩ :=
    exists_answered unavailable ⟨.new 1, ⟨[], fiveEach⟩⟩
      (handle_of_arguments hdispatch hclient hparams hauth rfl)
      (Metering.resets 0 _ (by decide))
  have hdrifts : (counterFleet nodeClient.channel.uri).Drifts
      (one.system.state nodeClient.channel.uri) ((2, 5) : Int × Int) := by
    rw [hstate]
    exact show (0 : Int) ≤ 2 ∧ (5 : Int) = 5 + 0 by decide
  obtain ⟨two, hmoved, hcache', htasks', hstate'⟩ :=
    exists_moved ⟨"secret", 8080⟩ unavailable hdrifts
  have hendpoint : hasEndpoint resetRequest = true := by rw [hasEndpoint, hdispatch]
  have hclient' : (nodeContext resetRequest.headers two.cache).1 = .ok nodeClient := by
    rw [hcache', hcache, handle_snd, if_pos hendpoint]
    rfl
  have hserves : (counterFleet nodeClient.channel.uri).Serves
      (two.system.state nodeClient.channel.uri)
      (nodeClient.request (.getStats "a" true)).metadata (.getStats "a" true)
      (.ok (some ({ value := 2 } : Stat))) ((0, 7) : Int × Int) := by
    rw [hstate']
    exact Metering.resets 5 _ (by decide)
  obtain ⟨d, hagain, -, htasks'', hstate''⟩ := exists_answered unavailable two
    (handle_of_arguments hdispatch hclient' hparams hauth rfl) hserves
  rw [htasks', htasks] at htasks''
  refine ⟨d, ((hone.trans hmoved).trans hagain).run, by rw [htasks'']; rfl, ?_, hstate''⟩
  rw [htasks'']
  simp

theorem readings_add_up_reset :
    ∃ d : Deployment counterFleet, d.response 0 = some (statValue "a" 5) ∧
      d.response 1 = some (statValue "a" 2) ∧ d.reported ⟨"a.example", 443⟩ "a" = 7 := by
  obtain ⟨d, hrun, hresults, hrequests, hstate⟩ := exists_resetRun
  have hmetered : Metered (counterFleet (⟨"a.example", 443⟩ : Reference.Uri)) "a" Prod.snd :=
    metered_counterNode
  have hall := (readings_add_up lruLaws rejectionLaws hrun hmetered).2 fun t ht _ _ => by
    have hmem := List.mem_map_of_mem (f := Task.result) ht
    rw [hresults] at hmem
    refine ⟨by rw [hrequests t ht]; decide, ?_⟩
    rcases List.mem_pair.mp hmem with h | h <;> rw [h] <;> rfl
  have hresponse (i : Nat) : d.response i = (d.system.tasks.map Task.result)[i]?.join := by
    rw [Deployment.response, List.getElem?_map]
    cases d.system.tasks[i]? <;> rfl
  refine ⟨d, by rw [hresponse, hresults]; rfl, by rw [hresponse, hresults]; rfl, ?_⟩
  have htaken : (d.system.state (⟨"a.example", 443⟩ : Reference.Uri) : Int × Int).2 = 7 :=
    congrArg Prod.snd hstate
  exact (add_zero _).symm.trans (hall.trans htaken)

end XrayBridge
