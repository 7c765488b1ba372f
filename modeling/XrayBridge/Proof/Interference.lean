import XrayBridge.Proof.Dispatch
import XrayBridge.Proof.Node
import XrayBridge.Proof.Requests

/-! Which requests the later ones cannot tell from requests that never came. -/

namespace XrayBridge

open Platform

section

variable [Platform]

def authenticated (settings : Settings) (request : HttpRequest) : Bool :=
  (bearerAuth settings request.headers).isOk

/-- Whether one of the two checks of the headers lets a request through. -/
def passesOne (settings : Settings) (request : HttpRequest) : Bool :=
  authenticated settings request || admitted request.headers

theorem handle_sameContents (laws : LruLaws) (settings : Settings) (request : HttpRequest)
    {a b : XrayClientCache} (h : SameContents a b) :
    SameContents (handle settings request a).2 (handle settings request b).2 := by
  rw [handle_snd, handle_snd]
  split
  · exact (nodeContext_sameContents laws request.headers h).2
  · exact h

theorem handle_not_admitted (laws : LruLaws) {n : ℕ+} {cache : XrayClientCache}
    (hcache : Reachable n cache) (settings : Settings) {request : HttpRequest}
    (h : admitted request.headers = false) :
    SameContents (handle settings request cache).2 cache := by
  rw [handle_snd]
  split
  · exact nodeContext_not_admitted laws hcache h
  · exact .refl cache

theorem serveAll_filter (laws : LruLaws) (settings : Settings) {n : ℕ+} {a b : XrayClientCache}
    (ha : Reachable n a) (hab : SameContents a b) (requests : List HttpRequest) :
    SameContents (serveAll settings requests a)
      (serveAll settings (requests.filter (passesOne settings)) b) := by
  induction requests generalizing a b with
  | nil => exact hab
  | cons request requests ih =>
    rw [List.filter_cons]
    split
    · exact ih (ha.handle settings request) (handle_sameContents laws settings request hab)
    · rename_i hkeep
      rw [Bool.not_eq_true, passesOne, Bool.or_eq_false_iff] at hkeep
      exact ih (ha.handle settings request)
        ((handle_not_admitted laws ha settings hkeep.2).trans hab)

/-- No request that fails both checks is noticed by another one.  The other requests that fail
authentication change what is cached, but not what a node sees of a later request's client; and what
a request does to the cache does not depend on whether it is authenticated. -/
theorem serveAll_rejected (laws : LruLaws) (n : ℕ+) (settings : Settings)
    (requests : List HttpRequest) :
    SameContents (serveAll settings requests (.new n))
      (serveAll settings (requests.filter (passesOne settings)) (.new n)) ∧
    (∀ before request rest, requests = before ++ request :: rest →
      passesOne settings request = true →
      SameContents (serveAll settings before (.new n))
        (serveAll settings (before.filter (passesOne settings)) (.new n)) ∧
      (nodeContext request.headers (serveAll settings before (.new n))).1 =
        (nodeContext request.headers
          (serveAll settings (before.filter (passesOne settings)) (.new n))).1) ∧
    (∀ before request rest, requests = before ++ request :: rest →
      authenticated settings request = true →
      (nodeContext request.headers (serveAll settings before (.new n))).1.map XrayClient.seen =
        (nodeContext request.headers
          (serveAll settings (before.filter (authenticated settings)) (.new n))).1.map
            XrayClient.seen) ∧
    ∀ other, serveAll other requests (.new n) = serveAll settings requests (.new n) := by
  refine ⟨serveAll_filter laws settings .new (.refl _) requests, ?_, ?_, fun other => ?_⟩
  · intro before request rest _ _
    have hsame := serveAll_filter laws settings (n := n) .new (.refl _) before
    exact ⟨hsame, (nodeContext_sameContents laws request.headers hsame).1⟩
  · intro before request rest _ _
    exact nodeContext_seen_eq laws (Reachable.new.serveAll settings before)
      (Reachable.new.serveAll settings _) request.headers
  · have hstep : (fun cache request => (handle other request cache).2) =
        fun cache request => (handle settings request cache).2 := by
      funext cache request
      rw [handle_snd, handle_snd]
    rw [serveAll, hstep, serveAll]

end

open Reference

theorem hasEndpoint_sysRequest (bridgeToken domain : String) :
    hasEndpoint (sysRequest bridgeToken domain) = true := by
  rw [hasEndpoint, dispatch_sysRequest]

theorem rejected_request_evicts :
    let settings : Settings := ⟨"secret", 8080⟩
    let requests := [sysRequest "secret" "a.example", sysRequest "wrong" "b.example"]
    ¬SameContents (serveAll settings requests (.new 1))
      (serveAll settings (requests.filter (authenticated settings)) (.new 1)) := by
  intro settings requests h
  have hall : ∀ request ∈ requests, hasEndpoint request = true := by
    simp [requests, hasEndpoint_sysRequest]
  have hkeys := congrArg Recency.keys h.entries
  rw [serveAll_of_hasEndpoint hall,
    serveAll_of_hasEndpoint fun r hr => hall r (List.mem_of_mem_filter hr)] at hkeys
  revert hkeys
  decide +kernel

theorem serveAll_rejected_example :
    let settings : Settings := ⟨"secret", 8080⟩
    let requests := [sysRequest "secret" "a.example", sysRequest "wrong" ""]
    SameContents (serveAll settings requests (.new 1))
      (serveAll settings (requests.filter (passesOne settings)) (.new 1)) :=
  (serveAll_rejected lruLaws 1 _ _).1

end XrayBridge
