import XrayBridge.Proof.Accounts
import XrayBridge.Proof.Removal
import XrayBridge.Proof.Routes

/-! The responses are a log of what a node has: those that say that something has been added, less
those that say that it has been removed, are what the node has more than before. -/

namespace XrayBridge

open Platform RemoteCalls

/-- What a node is given and relieved of by name. -/
inductive Resource where
  | user (tag email : String)
  | inbound (tag : String)
  | outbound (tag : String)

inductive Change where
  | adds (r : Resource)
  | removes (r : Resource)

def Change.resource : Change → Resource
  | .adds r | .removes r => r

/-! ### Numbers -/

open Classical in
/-- One for a thing that is there. -/
noncomputable def present (p : Prop) : ℤ := if p then 1 else 0

theorem present_congr {p q : Prop} (h : p ↔ q) : present p = present q := by
  rw [propext h]

theorem present_of {p : Prop} (h : p) : present p = 1 := if_pos h

theorem present_of_not {p : Prop} (h : ¬p) : present p = 0 := if_neg h

/-! ### What the responses say -/

/-- What a document says that has been done. -/
def Json.change (document : Json) : Option Change := do
  let action ← (document.get "action").bind asStr
  let detail ← document.get "detail"
  let tag ← (detail.get "tag").bind asStr
  let email := (detail.get "email").bind asStr
  if action = "add-user" then email.map fun email => .adds (.user tag email)
  else if action = "remove-user" then
    if (detail.get "note").isSome then none else email.map fun email => .removes (.user tag email)
  else if action = "add-inbound" then some (.adds (.inbound tag))
  else if action = "remove-inbound" then some (.removes (.inbound tag))
  else if action = "add-outbound" then some (.adds (.outbound tag))
  else if action = "remove-outbound" then some (.removes (.outbound tag))
  else none

def Response.change (response : Response) : Option Change :=
  match response.body with
  | .json document => document.change
  | _ => none

theorem Response.Plain.change {response : Response} (h : response.Plain) :
    response.change = none := by
  unfold Response.change
  split
  · rename_i document hbody
    rw [Json.change, h.get hbody (by decide)]
    rfl
  · rfl

theorem change_withoutBody (response : Response) : response.withoutBody.change = none := rfl

theorem change_answerTo {request : HttpRequest} {response : Response}
    (h : response.change = none) : (answerTo request response).change = none := by
  unfold answerTo
  split
  · rfl
  · exact h

section

variable [Platform]

/-! ### What the calls ask for -/

def Rpc.change : Rpc → Option Change
  | .alterInbound request =>
    match request.addedUser with
    | some user => some (.adds (.user user.tag user.email))
    | none => request.removedUser.map fun user => .removes (.user user.1 user.2)
  | .addInbound (some config) => some (.adds (.inbound config.tag))
  | .removeInbound tag => some (.removes (.inbound tag))
  | .addOutbound (some config) => some (.adds (.outbound config.tag))
  | .removeOutbound tag => some (.removes (.outbound tag))
  | _ => none

/-- The answer says exactly what the call has asked for, when it succeeds, and nothing when it
fails. -/
def Plan.Reports : Plan → Prop
  | .refuse _ response => response.change = none
  | .call _ message respond =>
    (∀ reply, (respond (.ok reply)).change = message.change) ∧
      ∀ status, (respond (.error status)).change = none

theorem change_intoResponse (e : AppError) : e.intoResponse.change = none :=
  (plain_intoResponse e).change

theorem reports_respondWith {event : String} {message : Rpc} {read : message.Reply → Response}
    (h : ∀ reply, (read reply).change = message.change) :
    (Plan.call event message (respondWith read)).Reports :=
  ⟨h, fun status => change_intoResponse (.ofStatus status)⟩

theorem addedUser_removeUserRequest (laws : ProstLaws) (user : NodeUser) :
    (removeUserRequest user).addedUser = none := by
  have hoperation : (removeUserRequest user).operation.bind decodeTyped = some _ :=
    decodeTyped_typed laws (m := ⟨.removeUserOperation, _⟩) trivial
  rw [AlterInboundRequest.addedUser, hoperation]

theorem reports_addUserPlan (laws : ProstLaws) (body : AddUserBody) :
    (addUserPlan body).Reports := by
  have hbuilt := built body
  unfold addUserPlan
  generalize buildAccountTypedMessage (toLowercase body.proto) body.uuid body.flow
    body.vmessSecurity body.password body.ssCipher = result at hbuilt ⊢
  cases hbuilt with
  | @account p protocol checked =>
    refine reports_respondWith fun reply => ?_
    rw [Rpc.change, addedUser_request laws]
    rfl
  | noPassword | unknown => exact change_intoResponse _

theorem change_removeUserRequest (laws : ProstLaws) (user : NodeUser) :
    (Rpc.alterInbound (removeUserRequest user)).change =
      some (.removes (.user user.1 user.2)) := by
  rw [Rpc.change, addedUser_removeUserRequest laws, removedUser_removeUserRequest laws]
  rfl

theorem reports_removeUser (laws : ProstLaws) (email : String) (q : RemoveUserQuery) :
    (Plan.call "AlterInbound/RemoveUser" (.alterInbound (removeUserRequest (q.tag, email)))
      (removeUserResponse email q)).Reports := by
  constructor
  · rintro ⟨⟩
    rw [change_removeUserRequest laws]
    rfl
  · intro status
    unfold removeUserResponse
    dsimp only
    split
    · rfl
    · exact change_intoResponse _

theorem reports_configPlan {C : Type} {action event : String} {convert : Json → Except AppError C}
    {message : C → Rpc} {tag : C → String} {resource : String → Resource} {config : Json}
    (htag : ∀ c, convert config = .ok c → configTag config = .ok (tag c))
    (hmessage : ∀ c, (message c).change = some (.adds (resource (tag c))))
    (haction : ∀ tag, (createdJson (operationResult action (tagJson tag))).change =
      some (.adds (resource tag))) :
    (configPlan action event convert message config).Reports := by
  unfold configPlan
  split
  · exact change_intoResponse _
  · cases hconvert : convert config with
    | error e => exact change_intoResponse e
    | ok c =>
      refine reports_respondWith fun reply => ?_
      obtain ⟨-, hget⟩ := configTag_eq_ok_iff.mp (htag c hconvert)
      rw [hmessage, haction, hget]
      rfl

theorem configTag_of_inbound {config : Json} {c : InboundHandlerConfig}
    (h : jsonToInboundConfig config = .ok c) : configTag config = .ok c.tag := by
  obtain ⟨tag, htag, h⟩ := bind_eq_ok_iff.mp h
  obtain ⟨receiver, -, h⟩ := bind_eq_ok_iff.mp h
  obtain ⟨proxy, -, h⟩ := bind_eq_ok_iff.mp h
  cases h
  exact htag

theorem configTag_of_outbound {config : Json} {c : OutboundHandlerConfig}
    (h : jsonToOutboundConfig config = .ok c) : configTag config = .ok c.tag := by
  obtain ⟨tag, htag, h⟩ := bind_eq_ok_iff.mp h
  obtain ⟨sender, -, h⟩ := bind_eq_ok_iff.mp h
  obtain ⟨proxy, -, h⟩ := bind_eq_ok_iff.mp h
  cases h
  exact htag

theorem reports_plan (laws : ProstLaws) (e : Endpoint) (params : e.handler.Params)
    (body : e.handler.Body) : (e.plan params body).Reports := by
  cases e with
  | addUser => exact reports_addUserPlan laws body
  | removeUser => exact reports_removeUser laws params.1 params.2
  | addInbound =>
    exact reports_configPlan (fun _ => configTag_of_inbound) (fun _ => rfl) fun _ => rfl
  | addOutbound =>
    exact reports_configPlan (fun _ => configTag_of_outbound) (fun _ => rfl) fun _ => rfl
  | getStat =>
    refine ⟨fun _ => rfl, fun status => ?_⟩
    show (if status.saysMissing then statValue params.1 0 else forwarded status).change = none
    split
    · rfl
    · exact change_intoResponse _
  | _ => exact reports_respondWith fun _ => rfl

/-! ### `HEAD` -/

/-- The message of a plan asks for no change. -/
def Plan.Harmless : Plan → Prop
  | .refuse _ _ => True
  | .call _ message _ => message.change = none

theorem harmless_of_get {e : Endpoint} (h : (Service.endpoint e).location.method = .get)
    (params : e.handler.Params) (body : e.handler.Body) : (e.plan params body).Harmless := by
  cases e with
  | getSysStats | listUsers | getOnlineUsers | getUsersStats | queryStats | getStat
  | listInbounds | listOutbounds | listRules | getBalancer => rfl
  | _ => cases h

/-! ### Requests -/

/-- The request asks a node for a change. -/
def AsksFor (request : HttpRequest) (change : Change) : Prop :=
  ∃ (e : Endpoint) (params : e.handler.Params) (body : e.handler.Body) (event : String)
    (message : Rpc) (respond : Except Status message.Reply → Response),
    Arguments request e params body ∧ e.plan params body = .call event message respond ∧
      message.change = some change

/-- What a reply to a message means. -/
def Rpc.done (message : Rpc) : Except Status message.Reply → Option Change
  | .ok _ => message.change
  | .error _ => none

/-- What the response says is what has become of the node. -/
inductive Truthful (node : Node) (request : HttpRequest) (s : node.State) (response : Response) :
    node.State → Prop where
  | nothing (silent : response.change = none) : Truthful node request s response s
  | served {metadata : Metadata} {message : Rpc} {reply : Except Status message.Reply}
      {s' : node.State} (serves : node.Serves s metadata message reply s')
      (told : response.change = message.done reply)
      (asks : ∀ change, message.change = some change → AsksFor request change) :
      Truthful node request s response s'

theorem Handled.truthful (prost : ProstLaws) (rejections : RejectionLaws) {node : Node}
    {request : HttpRequest} {s s' : node.State} {response : Response}
    (h : Handled node request s response s') : Truthful node request s response s' := by
  cases h with
  | refused refusal => exact .nothing (refusal.plain rejections).change
  | @planned e params body _ _ arguments carried =>
    have hreports := reports_plan prost e params body
    generalize hplan : e.plan params body = plan at carried hreports
    cases carried with
    | refuse event response => exact .nothing (change_answerTo hreports)
    | @call event message respond metadata reply _ serves =>
      refine .served serves ?_ fun change hchange =>
        ⟨e, params, body, event, message, respond, arguments, hplan, hchange⟩
      by_cases hhead : request.method = .head
      · obtain ⟨captures, hdispatch, -⟩ := arguments.route
        rw [hhead] at hdispatch
        have hharmless := harmless_of_get (dispatch_eq_ok hdispatch).2.get_of_head params body
        rw [hplan] at hharmless
        have hnone : message.change = none := hharmless
        rw [answerTo, if_pos hhead, change_withoutBody]
        cases reply with
        | ok reply => exact hnone.symm
        | error status => rfl
      · rw [answerTo_of_ne hhead]
        cases reply with
        | ok reply => exact hreports.1 reply
        | error status => exact hreports.2 status

/-! ### Balances -/

/-- The resources that are `same` are one for a node, `holds` says whether the node has it, and the
node adds and removes it as it is told to.  It may also come and go with what `disturbs` it, as a
user does with an inbound. -/
structure Tracks (node : Node) (same disturbs : Resource → Prop) (holds : node.State → Prop) : Prop
    where
  drifts {s s' : node.State} (h : node.Drifts s s') : holds s' ↔ holds s
  failed {s s' : node.State} {metadata : Metadata} {message : Rpc} {status : Status}
    (h : node.Serves s metadata message (.error status) s') : holds s' ↔ holds s
  added {s s' : node.State} {metadata : Metadata} {message : Rpc} {reply : message.Reply}
    {r : Resource} (h : node.Serves s metadata message (.ok reply) s')
    (change : message.change = some (.adds r)) (hr : same r) : ¬holds s ∧ holds s'
  removed {s s' : node.State} {metadata : Metadata} {message : Rpc} {reply : message.Reply}
    {r : Resource} (h : node.Serves s metadata message (.ok reply) s')
    (change : message.change = some (.removes r)) (hr : same r) : holds s ∧ ¬holds s'
  other {s s' : node.State} {metadata : Metadata} {message : Rpc} {reply : message.Reply}
    (h : node.Serves s metadata message (.ok reply) s')
    (change : ∀ change, message.change = some change →
      ¬same change.resource ∧ ¬disturbs change.resource) : holds s' ↔ holds s

/-- What a response says about the resources, as a change of their number. -/
noncomputable def Response.said (same : Resource → Prop) (response : Response) : ℤ :=
  match response.change with
  | some (.adds r) => present (same r)
  | some (.removes r) => -present (same r)
  | none => 0

variable {fleet : Fleet} {settings : Settings} {transport : Transport}

theorem Truthful.present_eq {node : Node} {same disturbs : Resource → Prop}
    {holds : node.State → Prop} (tracks : Tracks node same disturbs holds) {request : HttpRequest}
    {s s' : node.State} {response : Response} (h : Truthful node request s response s')
    (undisturbed : ∀ change, AsksFor request change →
      same change.resource ∨ ¬disturbs change.resource) :
    present (holds s') = response.said same + present (holds s) := by
  cases h with
  | nothing silent => rw [Response.said, silent, zero_add]
  | @served metadata message reply _ serves told asks =>
    rw [Response.said, told]
    cases reply with
    | error status =>
      rw [Rpc.done, zero_add]
      exact present_congr (tracks.failed serves)
    | ok reply =>
      rw [Rpc.done]
      cases hchange : message.change with
      | none =>
        rw [zero_add]
        refine present_congr (tracks.other serves fun change h => ?_)
        rw [hchange] at h
        cases h
      | some change =>
        by_cases hsame : same change.resource
        · cases change with
          | adds r =>
            have hsame : same r := hsame
            obtain ⟨hbefore, hafter⟩ := tracks.added serves hchange hsame
            dsimp only
            rw [present_of hsame, present_of_not hbefore, present_of hafter]
            rfl
          | removes r =>
            have hsame : same r := hsame
            obtain ⟨hbefore, hafter⟩ := tracks.removed serves hchange hsame
            dsimp only
            rw [present_of hsame, present_of hbefore, present_of_not hafter]
            rfl
        · have hdisturbs := (undisturbed change (asks change hchange)).resolve_left hsame
          have hholds := tracks.other serves fun other h => by
            rw [hchange] at h
            cases h
            exact ⟨hsame, hdisturbs⟩
          rw [present_congr hholds]
          cases change with
          | adds r | removes r =>
            have hnone : present (same r) = 0 := present_of_not hsame
            dsimp only
            rw [hnone]
            omega

/-- The response to a request for the node tells of the resources what `kind` is: that one has been
added, or that one has been removed. -/
def ToldOf (uri : Uri) (kind : Resource → Change) (same : Resource → Prop) (t : RequestTask) :
    Prop :=
  Names t.label.request uri ∧
    ∃ response r, t.result = some response ∧ response.change = some (kind r) ∧ same r

open Classical in
/-- How many responses to requests for the node tell so. -/
noncomputable def Deployment.count (d : Deployment fleet) (uri : Uri) (kind : Resource → Change)
    (same : Resource → Prop) : Nat :=
  d.system.tasks.countP fun t => ToldOf uri kind same t

theorem toldOf_iff {uri : Uri} {kind : Resource → Change} {same : Resource → Prop}
    {t : RequestTask} {response : Response} (hnames : Names t.label.request uri)
    (hresult : t.result = some response) :
    ToldOf uri kind same t ↔ ∃ r, response.change = some (kind r) ∧ same r := by
  constructor
  · rintro ⟨-, response', r, h, hchange⟩
    rw [hresult] at h
    cases h
    exact ⟨r, hchange⟩
  · rintro ⟨r, hchange⟩
    exact ⟨hnames, response, r, hresult, hchange⟩

theorem gained_said (uri : Uri) (same : Resource → Prop) (t : RequestTask) :
    t.gained (Deployment.gained uri fun _ => Response.said same) =
      present (ToldOf uri .adds same t) - present (ToldOf uri .removes same t) := by
  by_cases htold : Names t.label.request uri ∧ ∃ response, t.result = some response
  · obtain ⟨hnames, response, hresult⟩ := htold
    rw [Task.gained, hresult, Option.elim_some, Deployment.gained, if_pos hnames, Response.said,
      present_congr (toldOf_iff hnames hresult), present_congr (toldOf_iff hnames hresult)]
    cases response.change with
    | none =>
      rw [present_of_not (by simp), present_of_not (by simp)]
      rfl
    | some change =>
      cases change with
      | adds r =>
        have hadds : (∃ r', some (Change.adds r) = some (.adds r') ∧ same r') ↔ same r := by simp
        have hremoves : ¬∃ r', some (Change.adds r) = some (.removes r') ∧ same r' := by simp
        rw [present_congr hadds, present_of_not hremoves, sub_zero]
      | removes r =>
        have hadds : ¬∃ r', some (Change.removes r) = some (.adds r') ∧ same r' := by simp
        have hremoves : (∃ r', some (Change.removes r) = some (.removes r') ∧ same r') ↔
            same r := by
          simp
        rw [present_of_not hadds, present_congr hremoves, zero_sub]
  · have hsilent (kind : Resource → Change) : ¬ToldOf uri kind same t := by
      rintro ⟨hnames, response, -, hresult, -⟩
      exact htold ⟨hnames, response, hresult⟩
    rw [present_of_not (hsilent _), present_of_not (hsilent _), Task.gained]
    cases hresult : t.result with
    | none => rfl
    | some response => exact if_neg fun hnames => htold ⟨hnames, response, hresult⟩

theorem count_cons {t : RequestTask} {tasks : List RequestTask} {state : fleet.object.State}
    {cache : XrayClientCache} (uri : Uri) (kind : Resource → Change) (same : Resource → Prop) :
    ((⟨cache, ⟨t :: tasks, state⟩⟩ : Deployment fleet).count uri kind same : ℤ) =
      present (ToldOf uri kind same t) +
        (⟨cache, ⟨tasks, state⟩⟩ : Deployment fleet).count uri kind same := by
  rw [Deployment.count, Deployment.count, List.countP_cons, add_comm, Nat.cast_add]
  congr 1
  by_cases htold : ToldOf uri kind same t
  · rw [if_pos (by simpa using htold), present_of htold, Nat.cast_one]
  · rw [if_neg (by simpa using htold), present_of_not htold, Nat.cast_zero]

theorem sum_gained (uri : Uri) (same : Resource → Prop) (d : Deployment fleet) :
    (d.system.tasks.map
        (Task.gained (Deployment.gained uri fun _ => Response.said same))).sum =
      (d.count uri .adds same : ℤ) - d.count uri .removes same := by
  obtain ⟨cache, ⟨tasks, state⟩⟩ := d
  induction tasks with
  | nil => rfl
  | cons t tasks ih =>
    rw [count_cons, count_cons, List.map_cons, List.sum_cons, ih, gained_said]
    omega

/-- If all requests for a node have been answered, none of them with the failure of its call, then
the responses that say that a resource has been added, less those that say that it has been removed,
are what the node has more of it than before: 1, 0 or -1. -/
theorem changes_add_up (laws : LruLaws) (prost : ProstLaws) (rejections : RejectionLaws) {n : ℕ+}
    {state : fleet.object.State} {d : Deployment fleet} (h : d.Run settings transport n state)
    {uri : Uri} {same disturbs : Resource → Prop} {holds : (fleet uri).State → Prop}
    (tracks : Tracks (fleet uri) same disturbs holds)
    (answered : ∀ t ∈ d.system.tasks, Names t.label.request uri → t.result.isSome)
    (undisturbed : ∀ t ∈ d.system.tasks, Names t.label.request uri →
      ∀ change, AsksFor t.label.request change →
        same change.resource ∨ ¬disturbs change.resource) :
    present (holds (d.system.state uri)) + d.count uri .removes same =
      present (holds (state uri)) + d.count uri .adds same := by
  have hvalue := h.account laws uri (fun s => present (holds s)) (fun _ => Response.said same)
    (fun s s' hdrift => present_congr (tracks.drifts hdrift))
    (fun t ht hnames s response s' hhandled =>
      (hhandled.truthful prost rejections).present_eq tracks (undisturbed t ht hnames))
    fun t ht hnames hnone => by
      have hsome := answered t ht hnames
      rw [hnone] at hsome
      cases hsome
  rw [sum_gained] at hvalue
  omega

end

open Reference

/-- A node with users, who can only be removed. -/
inductive Leaving (users : Set NodeUser) (metadata : Metadata) :
    (message : Rpc) → Except Status message.Reply → Set NodeUser → Prop where
  | removes {request : AlterInboundRequest} {tag email : String}
      (change : (Rpc.alterInbound request).change = some (.removes (.user tag email)))
      (isThere : (tag, email) ∈ users) :
      Leaving users metadata (.alterInbound request) (.ok ()) (users \ {(tag, email)})
  | refuses (message : Rpc) (status : Status) : Leaving users metadata message (.error status) users

def leavingNode : Node := ⟨Set NodeUser, Leaving, fun _ _ => False⟩

def leavingFleet : Fleet := fun _ => leavingNode

def oneUserEach : leavingFleet.object.State := fun _ => ({("inbound", "a")} : Set NodeUser)

theorem tracks_leavingNode (user : NodeUser) :
    Tracks leavingNode (· = .user user.1 user.2) (fun _ => False) fun users : Set NodeUser =>
      user ∈ users where
  drifts h := h.elim
  failed h := by
    cases h
    exact Iff.rfl
  added h change _ := by
    cases h with
    | removes removes isThere =>
      rw [removes] at change
      cases change
  removed h change hr := by
    subst hr
    cases h with
    | removes removes isThere =>
      rw [removes] at change
      cases change
      exact ⟨isThere, fun h => h.2 rfl⟩
  other h change := by
    cases h with
    | removes removes isThere =>
      have hother := (change _ removes).1
      refine ⟨fun h => h.1, fun h => ⟨h, ?_⟩⟩
      rintro rfl
      exact hother rfl

/-- A user who is there is removed, and a second removal does not find the user. -/
theorem exists_removalRun :
    ∃ (d : Deployment leavingFleet) (cache : XrayClientCache),
      Deployment.Steps ⟨"secret", 8080⟩ unavailable ⟨.new 1, ⟨[], oneUserEach⟩⟩ 8 d ∧
      d.system.tasks =
        [⟨⟨strictRequest, .new 1⟩,
            .done (removeUserResponse "a" ⟨"inbound", false⟩ (.ok ())), .closed, false⟩,
          ⟨⟨ignoringRequest, cache⟩,
            .done (removeUserResponse "a" ⟨"inbound", true⟩ (.error ⟨.notFound, "gone"⟩)),
            .closed, false⟩] ∧
      d.system.state (⟨"a.example", 443⟩ : Reference.Uri) =
        ({("inbound", "a")} \ {("inbound", "a")} : Set NodeUser) := by
  have hthere : ("inbound", "a") ∈ ({("inbound", "a")} : Set NodeUser) := Set.mem_singleton _
  obtain ⟨client, hseen, hnode, ⟨captures, hdispatch, hparams⟩, hauth⟩ :=
    exists_strict (Reachable.new (n := 1))
  have huri : client.channel.uri = (⟨"a.example", 443⟩ : Reference.Uri) := congrArg Prod.snd hseen
  obtain ⟨d, hsteps, hcache, htasks, hstate⟩ :=
    exists_answered unavailable ⟨.new 1, ⟨[], oneUserEach⟩⟩
      (handle_of_arguments hdispatch hnode hparams hauth rfl)
      (Leaving.removes (change_removeUserRequest prostLaws _) hthere)
  have hreachable : Reachable 1 d.cache := hcache ▸ Reachable.new.handle _ _
  obtain ⟨client', hseen', hnode', ⟨captures', hdispatch', hparams'⟩, hauth'⟩ :=
    exists_ignoring hreachable
  have huri' : client'.channel.uri = (⟨"a.example", 443⟩ : Reference.Uri) :=
    congrArg Prod.snd hseen'
  obtain ⟨d', hsteps', -, htasks', hstate'⟩ :=
    exists_answered unavailable d (handle_of_arguments hdispatch' hnode' hparams' hauth' rfl)
      (Leaving.refuses _ ⟨.notFound, "gone"⟩)
  refine ⟨d', d.cache, hsteps.trans hsteps', by rw [htasks', htasks]; rfl, ?_⟩
  rw [huri] at hstate
  rw [huri'] at hstate'
  exact hstate'.trans hstate

/-- The removal of a user who is there, and one that is ignored. -/
theorem changes_add_up_strict :
    ∃ d : Deployment leavingFleet,
      d.response 0 = some (removeUserResponse "a" ⟨"inbound", false⟩ (.ok ())) ∧
      d.response 1 =
        some (removeUserResponse "a" ⟨"inbound", true⟩ (.error ⟨.notFound, "gone"⟩)) ∧
      (d.count ⟨"a.example", 443⟩ .removes (· = .user "inbound" "a") : ℤ) =
        1 + d.count ⟨"a.example", 443⟩ .adds (· = .user "inbound" "a") := by
  obtain ⟨d, cache, hsteps, htasks, hstate⟩ := exists_removalRun
  have hanswered : ∀ t ∈ d.system.tasks, t.result.isSome := by
    rw [htasks]
    simp [Task.result]
  let uri : Reference.Uri := ⟨"a.example", 443⟩
  have htracks : Tracks (leavingFleet uri) _ _ _ := tracks_leavingNode ("inbound", "a")
  have hbalance := changes_add_up lruLaws prostLaws rejectionLaws hsteps.run htracks
    (fun t ht _ => hanswered t ht) fun _ _ _ _ _ => Or.inr id
  have hthere : ("inbound", "a") ∈ ({("inbound", "a")} : Set NodeUser) := Set.mem_singleton _
  have hgone (after : Set NodeUser) (h : after = {("inbound", "a")} \ {("inbound", "a")}) :
      ("inbound", "a") ∉ after := by
    rw [h]
    exact fun h => h.2 rfl
  rw [present_of_not (hgone _ hstate), zero_add] at hbalance
  refine ⟨d, ?_, ?_, hbalance.trans (by rw [oneUserEach, present_of hthere])⟩
  · rw [Deployment.response, htasks]
    rfl
  · rw [Deployment.response, htasks]
    rfl

end XrayBridge
