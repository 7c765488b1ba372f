import Mathlib.Algebra.Order.Group.Defs
import XrayBridge.Proof.Deployment

/-! What a request does to the node that it is for, and accounts of a node over a run: what the
requests gain together is what a value of the node changes by. -/

namespace XrayBridge

open Platform RemoteCalls StatsService

section

variable [Platform]

/-! ### Requests at one node -/

/-- A plan, carried out with a node. -/
inductive Plan.Carried (node : Node) (request : HttpRequest) (s : node.State) :
    Plan → Response → node.State → Prop where
  | refuse (event : Option String) (response : Response) :
      Carried node request s (.refuse event response) (answerTo request response) s
  | call {event : String} {message : Rpc} {respond : Except Status message.Reply → Response}
      {metadata : Metadata} {reply : Except Status message.Reply} {s' : node.State}
      (serves : node.Serves s metadata message reply s') :
      Carried node request s (.call event message respond) (answerTo request (respond reply)) s'

/-- The request has the arguments of an operation. -/
structure Arguments (request : HttpRequest) (e : Endpoint) (params : e.handler.Params)
    (body : e.handler.Body) : Prop where
  route : ∃ captures, dispatch request.method request.path = .ok (.endpoint e, captures) ∧
    e.handler.params ⟨request, captures⟩ = .ok params ∧
    e.handler.body ⟨request, captures⟩ = .ok body

/-- The call that a request is for, if it is let through. -/
def HttpRequest.message (request : HttpRequest) : Option Rpc :=
  match dispatch request.method request.path with
  | .ok (.endpoint e, captures) =>
    match e.handler.params ⟨request, captures⟩, e.handler.body ⟨request, captures⟩ with
    | .ok params, .ok body => (e.plan params body).message
    | _, _ => none
  | _ => none

theorem Arguments.message {request : HttpRequest} {e : Endpoint} {params : e.handler.Params}
    {body : e.handler.Body} (h : Arguments request e params body) :
    request.message = (e.plan params body).message := by
  obtain ⟨captures, hdispatch, hparams, hbody⟩ := h.route
  rw [HttpRequest.message, hdispatch]
  dsimp only
  rw [hparams, hbody]

/-- What becomes of a node when a request is handled alone, and of the request. -/
inductive Handled (node : Node) (request : HttpRequest) (s : node.State) :
    Response → node.State → Prop where
  | refused {response : Response} (refusal : Refusal request response) :
      Handled node request s response s
  | planned {e : Endpoint} {params : e.handler.Params} {body : e.handler.Body}
      {response : Response} {s' : node.State} (arguments : Arguments request e params body)
      (carried : (e.plan params body).Carried node request s response s') :
      Handled node request s response s'

variable {settings : Settings} {transport : Transport}

theorem Plan.carried_of_runs {node : Node} {request : HttpRequest} {s s' : node.State} {plan : Plan}
    {client : XrayClient} {response : Response}
    (h : Runs node.object transport.link s ((plan.map (answerTo request)).task client) response
      s') :
    plan.Carried node request s response s' := by
  match plan with
  | .refuse none refusal =>
    obtain ⟨rfl, rfl⟩ := runs_done.mp h
    exact .refuse none refusal
  | .refuse (some event) refusal =>
    obtain ⟨_, h⟩ := (runs_local trivial).mp h
    obtain ⟨rfl, rfl⟩ := runs_done.mp h
    exact .refuse (some event) refusal
  | .call event message respond =>
    obtain ⟨_, h⟩ := (runs_local trivial).mp h
    obtain ⟨reply, mid, hserves, h⟩ := (runs_call id).mp h
    obtain ⟨rfl, rfl⟩ := runs_done.mp h
    exact .call hserves

theorem HandledAlone.handled (laws : LruLaws) {node : Node} {request : HttpRequest}
    {s s' : node.State} {response : Response}
    (h : HandledAlone settings transport node.object request s response s') :
    Handled node request s response s' := by
  unfold HandledAlone at h
  cases served laws settings request with
  | refused refusal all =>
    rw [all 1 _ .new] at h
    obtain ⟨rfl, rfl⟩ := runs_done.mp h
    exact .refused refusal
  | @planned e captures params body dispatch reads auth readsBody all =>
    obtain ⟨client, -, hhandle⟩ := all 1 _ .new
    rw [hhandle] at h
    exact .planned ⟨captures, dispatch, reads, readsBody⟩ (Plan.carried_of_runs h)

/-! ### Accounts of a node -/

section Account

variable {fleet : Fleet} {A : Type} [AddCommGroup A]

open Classical in
/-- What a request for the node gains by its response. -/
noncomputable def Deployment.gained (uri : Uri) (gain : HttpRequest → Response → A) (a : Arrival)
    (response : Response) : A :=
  if Names a.request uri then gain a.request response else 0

/-- What a request gains and what becomes of a value of a node, whether or not it is for the
node. -/
theorem HandledAlone.gained (laws : LruLaws) {uri : Uri} {value : (fleet uri).State → A}
    {gain : HttpRequest → Response → A} {p : A → A → A → Prop} (hother : ∀ v, p 0 v v)
    {a : Arrival}
    (hmine : Names a.request uri → ∀ s response s', Handled (fleet uri) a.request s response s' →
      p (gain a.request response) (value s) (value s'))
    {response : Response} {s s' : fleet.object.State}
    (h : HandledAlone settings transport fleet.object a.request s response s') :
    p (Deployment.gained uri gain a response) (value (s uri)) (value (s' uri)) := by
  obtain ⟨hthis, hframe⟩ := h.component laws uri
  by_cases hnames : Names a.request uri
  · rw [Deployment.gained, if_pos hnames]
    exact hmine hnames _ _ _ ((hthis hnames).handled laws)
  · rw [Deployment.gained, if_neg hnames, hframe hnames]
    exact hother _

/-- If each request handled alone changes a value of the node by what it gains, then in each run the
value changes by what the requests for the node gain together; those of them that have no answer
must have nothing to gain. -/
theorem Deployment.Run.account (laws : LruLaws) {n : ℕ+} {state : fleet.object.State}
    {d : Deployment fleet} (h : d.Run settings transport n state) (uri : Uri)
    (value : (fleet uri).State → A) (gain : HttpRequest → Response → A)
    (hdrifts : ∀ s s', (fleet uri).Drifts s s' → value s' = value s)
    (hhandled : ∀ t ∈ d.system.tasks, Names t.label.request uri → ∀ s response s',
      Handled (fleet uri) t.label.request s response s' →
      value s' = gain t.label.request response + value s)
    (hopen : ∀ t ∈ d.system.tasks, Names t.label.request uri → t.result = none →
      ∀ response, gain t.label.request response = 0) :
    value (d.system.state uri) =
      (d.system.tasks.map (Task.gained (Deployment.gained uri gain))).sum + value (state uri) := by
  obtain ⟨history, hhistory⟩ := h.explained laws
  have hacts : ∀ t ∈ d.system.tasks, ∀ response s s',
      HandledAlone settings transport fleet.object t.label.request s response s' →
      value (s' uri) = Deployment.gained uri gain t.label response + value (s uri) :=
    fun t htask response s s' hacts => hacts.gained laws (p := fun gain v v' => v' = gain + v)
      (fun v => (zero_add v).symm) (hhandled t htask)
  have hunseen : ((unseen d.system history).map fun entry =>
      Deployment.gained uri gain entry.label entry.result).sum = 0 := by
    refine List.sum_eq_zero fun x hx => ?_
    obtain ⟨entry, hentry, rfl⟩ := List.mem_map.mp hx
    obtain ⟨hmem, hnone⟩ := List.mem_filter.mp hentry
    obtain ⟨t, htask, hlabel⟩ := hhistory.entries hmem
    rw [htask, Option.bind_some, Option.isNone_iff_eq_none] at hnone
    rw [← hlabel, Deployment.gained]
    split
    · rename_i hnames
      exact hopen t (List.mem_of_getElem? htask) hnames hnone _
    · rfl
  have hvalue := Explains.account hhistory (fun s => value (s uri)) _ ?_ hacts
    fun t htask response hquiet => right_eq_add.mp (hacts t htask response state state (hquiet state))
  · rwa [hunseen, add_zero] at hvalue
  · intro s s' hmoves
    rcases Object.family_moves hmoves uri with hdrift | hsame
    · exact hdrifts _ _ hdrift
    · exact congrArg value hsame

/-- If each request handled alone changes a value of the node by no less than what it gains, then in
each run the requests for the node gain together no more than the value changes by. -/
theorem Deployment.Run.account_le [PartialOrder A] [IsOrderedAddMonoid A] (laws : LruLaws) {n : ℕ+}
    {state : fleet.object.State} {d : Deployment fleet} (h : d.Run settings transport n state)
    (uri : Uri) (value : (fleet uri).State → A) (gain : HttpRequest → Response → A)
    (hdrifts : ∀ s s', (fleet uri).Drifts s s' → value s ≤ value s')
    (hhandled : ∀ t ∈ d.system.tasks, Names t.label.request uri → ∀ s response s',
      Handled (fleet uri) t.label.request s response s' →
      0 ≤ gain t.label.request response ∧
        gain t.label.request response + value s ≤ value s') :
    (d.system.tasks.map (Task.gained (Deployment.gained uri gain))).sum + value (state uri) ≤
      value (d.system.state uri) := by
  obtain ⟨history, hhistory⟩ := h.explained laws
  refine Explains.account_le hhistory (fun s => value (s uri)) _ ?_
    fun t htask response s s' hacts => hacts.gained laws
      (p := fun gain v v' => 0 ≤ gain ∧ gain + v ≤ v') (fun v => ⟨le_rfl, (zero_add v).le⟩)
      (hhandled t htask)
  intro s s' hmoves
  rcases Object.family_moves hmoves uri with hdrift | hsame
  · exact hdrifts _ _ hdrift
  · exact (congrArg value hsame).ge

end Account

end

end XrayBridge
