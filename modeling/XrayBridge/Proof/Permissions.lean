import XrayBridge.Proof.ChangeLog
import XrayBridge.Proof.Routes

/-! What a node is set up to do changes by nothing but authenticated requests that say so by their
method and their path. -/

namespace XrayBridge

open Platform RemoteCalls

/-- The calls that change what a node is set up to do. -/
def Rpc.configures : Rpc → Bool
  | .alterInbound _ | .addInbound _ | .removeInbound _ | .addOutbound _ | .removeOutbound _
  | .removeRule _ | .overrideBalancerTarget _ _ | .restartLogger => true
  | _ => false

def Endpoint.configures : Endpoint → Bool
  | .addUser | .removeUser | .addInbound | .removeInbound | .addOutbound | .removeOutbound
  | .removeRule | .overrideBalancer | .restartLogger => true
  | _ => false

section

variable [Platform]

theorem configures_of_plan {e : Endpoint} {params : e.handler.Params} {body : e.handler.Body}
    (h : (e.plan params body).message.any Rpc.configures = true) : e.configures = true := by
  cases e with
  | addUser | removeUser | addInbound | removeInbound | addOutbound | removeOutbound | removeRule
  | overrideBalancer | restartLogger => rfl
  | _ => cases h

/-- A request that may change what a node is set up to do. -/
structure Configures (settings : Settings) (request : HttpRequest) : Prop where
  auth : bearerAuth settings request.headers = .ok ()
  message : request.message.any Rpc.configures = true

theorem Configures.endpoint {settings : Settings} {request : HttpRequest}
    (h : Configures settings request) :
    ∃ e captures, dispatch request.method request.path = .ok (.endpoint e, captures) ∧
      e.configures = true := by
  have hmessage := h.message
  unfold HttpRequest.message at hmessage
  split at hmessage
  · rename_i e captures hdispatch
    split at hmessage
    · exact ⟨e, captures, hdispatch, configures_of_plan hmessage⟩
    · cases hmessage
  · cases hmessage

variable {settings : Settings} {transport : Transport}

/-- The view of a node does not change by itself, nor by calls that do not configure the node. -/
structure Configuration (node : Node) {V : Type} (view : node.State → V) : Prop where
  drifts {s s' : node.State} (h : node.Drifts s s') : view s' = view s
  serves {s s' : node.State} {metadata : Metadata} {message : Rpc}
    {reply : Except Status message.Reply} (h : node.Serves s metadata message reply s')
    (reads : message.configures = false) : view s' = view s

/-- A request that is handled alone changes what the node is set up to do only if it may. -/
theorem HandledAlone.view (laws : LruLaws) {node : Node} {V : Type} {view : node.State → V}
    (configuration : Configuration node view) {request : HttpRequest} {s s' : node.State}
    {response : Response}
    (h : HandledAlone settings transport node.object request s response s')
    (hnot : ¬Configures settings request) : view s' = view s := by
  unfold HandledAlone at h
  cases served laws settings request with
  | refused refusal all =>
    rw [all 1 _ .new] at h
    obtain ⟨rfl, rfl⟩ := runs_done.mp h
    rfl
  | @planned e captures params body dispatch reads auth readsBody all =>
    obtain ⟨client, -, hhandle⟩ := all 1 _ .new
    rw [hhandle] at h
    have hcarried := Plan.carried_of_runs h
    have arguments : Arguments request e params body := ⟨captures, dispatch, reads, readsBody⟩
    have hmessage := arguments.message
    generalize e.plan params body = plan at hcarried hmessage
    cases hcarried with
    | refuse event response => rfl
    | @call event message respond metadata reply _ serves =>
      refine configuration.serves serves (Bool.eq_false_iff.mpr fun hconfigures => ?_)
      exact hnot ⟨auth, by rw [hmessage]; exact hconfigures⟩

variable {fleet : Fleet}

theorem Deployment.Run.view (laws : LruLaws) {n : ℕ+} {state : fleet.object.State}
    {d : Deployment fleet} (h : d.Run settings transport n state) {uri : Uri} {V : Type}
    {view : (fleet uri).State → V} (configuration : Configuration (fleet uri) view)
    (hnone : ∀ t ∈ d.system.tasks, Names t.label.request uri →
      ¬Configures settings t.label.request) :
    view (d.system.state uri) = view (state uri) := by
  obtain ⟨history, hhistory⟩ := h.explained laws
  refine hhistory.sequential.preserved (P := fun s => view (s uri) = view (state uri)) rfl ?_ ?_
  · intro s s' hmoves hview
    rcases Object.family_moves hmoves uri with hdrift | hsame
    · exact (configuration.drifts hdrift).trans hview
    · rw [hsame, hview]
  · intro entry hmem s s' hacts hview
    obtain ⟨t, htask, hlabel⟩ := hhistory.entries hmem
    obtain ⟨hmine, hframe⟩ := HandledAlone.component laws hacts uri
    by_cases hnames : Names entry.label.request uri
    · rw [← hview]
      refine (hmine hnames).view laws configuration ?_
      rw [← hlabel] at hnames ⊢
      exact hnone t (List.mem_of_getElem? htask) hnames
    · rw [hframe hnames, hview]

end

open Reference

end XrayBridge
