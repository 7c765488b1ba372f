import XrayBridge.Proof.CacheHistory
import XrayBridge.Proof.Calls

/-! The labels of clients: which call of a history has named the client that a request gets. -/

namespace XrayBridge

open Platform Recency XrayClientCache Dialogue

section

variable [Platform]

/-- The last of the calls on a key that did not find it among the `n` keys used before. -/
def builder (n : Nat) (key : Key) : List CacheCall → Option CacheCall
  | [] => none
  | call :: earlier =>
    if call.key = key ∧ key ∉ recent n (earlier.map CacheCall.key) then some call
    else builder n key earlier

/-- The cached client of a key has the name of the call that built it. -/
theorem builder_of_mem (laws : LruLaws) {n : ℕ+} {calls : List CacheCall} {key : Key}
    {client : XrayClient} (h : (key, client) ∈ (after n calls).entries) :
    (builder n key (accepted calls)).map CacheCall.name = some client.name := by
  induction calls with
  | nil =>
    rw [after_nil_entries laws] at h
    cases h
  | cons call earlier ih =>
    rcases hrun : call.run (after n earlier) with ⟨result, cache⟩
    have hafter : after n (call :: earlier) = cache := congrArg Prod.snd hrun
    rw [hafter] at h
    have hkeys := keys_after laws n earlier
    rw [requested_eq laws] at hkeys
    cases CacheCall.spec laws hrun with
    | hit found entries =>
      have hfaithful := (reachable_after n earlier).faithful laws
      have hok := (hfaithful _ _ (mem_of_lookup found)).2
      rw [accepted_cons_ok hok, builder, if_neg]
      · rw [entries] at h
        exact ih (mem_promote h)
      · rintro ⟨hkey, hnot⟩
        rw [← hkeys, ← hkey] at hnot
        exact hnot (mem_keys_of_lookup found)
    | failed missing refused entries =>
      rw [accepted_cons_error refused]
      rw [entries] at h
      exact ih h
    | built missing endpoint entries =>
      have hmissing := lookup_eq_none_iff.mp missing
      rw [accepted_cons_ok endpoint, builder]
      rw [entries] at h
      rcases mem_insert_of_notMem hmissing h with ⟨rfl, rfl⟩ | ⟨hkey, hmem⟩
      · rw [if_pos ⟨rfl, hkeys ▸ hmissing⟩]
        rfl
      · rw [if_neg fun h => hkey h.1.symm]
        exact ih hmem

/-- The name that a request gives its node. -/
def requestName (headers : Headers) : Option String := (headers.get "x-node-name").bind toStr

/-- After a history, the client of a request has the name that the request gives, and so does each
event of the request's call. -/
def LabelBelongs (n : ℕ+) (earlier : List CacheCall) (headers : Headers) : Prop :=
  ∀ client, (nodeContext headers (after n earlier)).1 = .ok client →
    client.name = requestName headers ∧
    ∀ (e : Endpoint) (params : e.handler.Params) (body : e.handler.Body) (event : TraceEvent),
      (toResponse (e.handler.run client params body)).Asks (.trace event) →
      ∃ method, event = .grpcCall method (requestName headers)

theorem labelBelongs_iff_name {n : ℕ+} {earlier : List CacheCall} {headers : Headers}
    {client : XrayClient} (h : (nodeContext headers (after n earlier)).1 = .ok client) :
    LabelBelongs n earlier headers ↔ client.name = requestName headers := by
  constructor
  · intro hlabel
    exact (hlabel client h).1
  · intro hname client' hclient'
    rw [h] at hclient'
    cases hclient'
    refine ⟨hname, fun e params body event hasks => ?_⟩
    obtain ⟨method, hevent⟩ := (within_toResponse (calls_run e client params body)).asks hasks
    exact ⟨method, by rw [hevent, hname]⟩

/-- After every history, the client of an admitted request has the request's own name exactly when
the request's key is not among the `n` keys used last, or the call that cached it gave the same
name. -/
theorem labelBelongs_iff (laws : LruLaws) (n : ℕ+) (earlier : List CacheCall) {headers : Headers}
    {params : NodeParams} (hparams : nodeParams headers = .ok params) :
    LabelBelongs n earlier headers ↔
      (params.call.key ∈ recent n ((accepted earlier).map CacheCall.key) →
        (builder n params.call.key (accepted earlier)).map CacheCall.name =
          some (requestName headers)) := by
  have hkeys := keys_after laws n earlier
  rw [requested_eq laws] at hkeys
  rw [← hkeys]
  rcases hrun : nodeContext headers (after n earlier) with ⟨result, cache⟩
  have hresult : (nodeContext headers (after n earlier)).1 = result := congrArg Prod.fst hrun
  cases nodeContext_spec laws hparams hrun with
  | hit found =>
    rw [labelBelongs_iff_name hresult, builder_of_mem laws (mem_of_lookup found),
      Option.some.injEq]
    exact ⟨fun h _ => h, fun h => h (mem_keys_of_lookup found)⟩
  | failed missing =>
    refine iff_of_true (fun client hclient => ?_) fun hmem => ?_
    · rw [hresult] at hclient
      cases hclient
    · exact absurd hmem (lookup_eq_none_iff.mp missing)
  | built missing =>
    rw [labelBelongs_iff_name hresult]
    refine iff_of_true (nodeParams_eq_ok hparams).2.2.2 fun hmem => ?_
    exact absurd hmem (lookup_eq_none_iff.mp missing)

end

open Reference

/-- The headers of a request for a node, with a name for the node. -/
def namedHeaders (name : String) : Headers :=
  [("x-node-domain", utf8 "a.example"), ("x-node-token", utf8 "t"), ("x-node-name", utf8 name)]

/-- The second request for a node gets the name that the first one has given. -/
theorem not_labelBelongs_second :
    ¬LabelBelongs 1 [⟨"a.example", 443, "t", some "first"⟩] (namedHeaders "second") := by
  intro h
  have hname := (h ⟨⟨⟨"a.example", 443⟩, 0⟩, "t", some "first"⟩ rfl).1
  revert hname
  decide

theorem labelBelongs_repeated :
    LabelBelongs 1 [⟨"a.example", 443, "t", some "first"⟩] (namedHeaders "first") := by
  have hparams : nodeParams (namedHeaders "first") = .ok ⟨"a.example", 443, "t", some "first"⟩ :=
    rfl
  apply (labelBelongs_iff lruLaws 1 _ hparams).mpr
  intro _
  decide

end XrayBridge
