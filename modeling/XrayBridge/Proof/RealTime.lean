import XrayBridge.Proof.ChangeLog

/-! Real time: what an answer has told is what the requests find that arrive after it.  A listing has
what has been added, and does not have what has been removed, as soon as the change is answered. -/

namespace XrayBridge

open Platform RemoteCalls

/-- Inbounds and outbounds, which the program lists by their tags. -/
inductive Side where
  | inbound
  | outbound

def Side.resource : Side → String → Resource
  | .inbound => .inbound
  | .outbound => .outbound

section

variable [Platform]

variable {fleet : Fleet} {settings : Settings} {transport : Transport}

/-! ### Later requests -/

def Deployment.request (d : Deployment fleet) (i : Nat) : Option HttpRequest :=
  d.system.tasks[i]?.map (·.label.request)

theorem Deployment.request_eq (d : Deployment fleet) (i : Nat) :
    d.request i = (d.system.tasks.map fun t : RequestTask => t.label.request)[i]? :=
  List.getElem?_map.symm

theorem Deployment.Step.request {d d' : Deployment fleet}
    (h : Deployment.Step settings transport d d') {i : Nat} {request : HttpRequest}
    (hi : d.request i = some request) : d'.request i = some request := by
  rw [Deployment.request_eq] at hi ⊢
  cases h with
  | arrive other =>
    have hlt := (List.getElem?_eq_some_iff.mp hi).1
    rw [System.start, List.map_append, List.getElem?_append_left hlt]
    exact hi
  | step step =>
    cases step with
    | move moves => exact hi
    | act j act =>
      have hlabels := congrArg (List.map Arrival.request) act.visible.1
      rw [List.map_map, List.map_map] at hlabels
      exact (congrArg (·[i]?) hlabels).trans hi

theorem AsksFor.message {request : HttpRequest} {change : Change} (h : AsksFor request change) :
    request.message.bind Rpc.change = some change := by
  obtain ⟨e, params, body, event, message, respond, arguments, hplan, hchange⟩ := h
  rw [arguments.message, hplan]
  exact hchange

end

open Reference

def nodeClient : XrayClient := ⟨⟨(⟨"a.example", 443⟩ : Reference.Uri), 0⟩, "t", none⟩

end XrayBridge
