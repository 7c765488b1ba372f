import XrayBridge.Proof.ClientCache
import XrayBridge.Proof.Calls
import XrayBridge.Reference

/-! What a request makes the program say to a node: the token that goes with each call, and the
host and the port that a channel is built for. -/

namespace XrayBridge

open Platform XrayClientCache

/-! ### Texts -/

theorem visibleChar_byteChar (b : UInt8) : visibleChar (byteChar b) = visibleByte b := by
  have hall : ∀ n < 256,
      visibleChar (byteChar (UInt8.ofNat n)) = visibleByte (UInt8.ofNat n) := by
    decide +kernel
  have h := hall b.toNat b.toNat_lt
  rwa [UInt8.ofNat_toNat] at h

theorem endpointText_eq (domain : String) (port : UInt16) :
    endpointText domain port = "https://" ++ (domain ++ ":" ++ showU16 port) := by
  simp only [endpointText, String.append_assoc]

theorem toList_domain_port (domain : String) (port : UInt16) :
    (domain ++ ":" ++ showU16 port).toList = domain.toList ++ ':' :: (showU16 port).toList := by
  simp

theorem digits_in_authority (port : UInt16) {c : Char} (h : c ∈ (showU16 port).toList) :
    UriAuthority.endsAuthority c = false ∧ c ≠ '@' ∧ c ≠ ']' := by
  have hdigit := isDigit_of_mem_showU16 h
  refine ⟨?_, ?_, ?_⟩
  · rw [← Bool.not_eq_true]
    intro hends
    simp only [UriAuthority.endsAuthority, Bool.or_eq_true, beq_iff_eq] at hends
    rcases hends with (rfl | rfl) | rfl <;> exact absurd hdigit (by decide)
  · rintro rfl
    exact absurd hdigit (by decide)
  · rintro rfl
    exact absurd hdigit (by decide)

section

variable [Platform]

/-! ### Tokens -/

/-- What `HeaderValue::to_str` reads, `MetadataValue::try_from` takes. -/
theorem visible_of_toStr (laws : HeaderLaws) {v : Bytes} {s : String} (h : toStr v = some s) :
    s.toList.all visibleChar = true := by
  obtain ⟨hall, hlist⟩ := (laws.toStr_iff v s).mp h
  rw [hlist, List.all_map, List.all_eq_true]
  intro b hb
  exact (visibleChar_byteChar b).trans (List.all_eq_true.mp hall b hb)

theorem requiredHeader_eq_ok {headers : Headers} {header missing value : String}
    (h : requiredHeader headers header missing = .ok value) :
    ∃ v, headers.get header = some v ∧ toStr v = some value := by
  unfold requiredHeader at h
  split at h
  · rename_i value' hvalue
    cases h
    exact Option.bind_eq_some_iff.mp (Option.filter_eq_some_iff.mp hvalue).1
  · cases h

theorem metadataTryFrom_token (header : HeaderLaws) (metadata : MetadataLaws) {headers : Headers}
    {params : NodeParams} (h : nodeParams headers = .ok params) :
    metadataTryFrom params.token = some (utf8 params.token) := by
  obtain ⟨v, -, hv⟩ := requiredHeader_eq_ok (nodeParams_eq_ok h).2.1
  exact metadata.tryFrom _ (visible_of_toStr header hv)

theorem withApiToken_metadata {message : Rpc} {token : String} {value : Bytes}
    (h : metadataTryFrom token = some value) :
    (withApiToken (.new message) token).metadata = [("x-api-token", value)] := by
  rw [withApiToken, h]
  rfl

theorem endpoint_eq_ok {domain : String} {port : UInt16} {uri : Uri}
    (h : endpoint domain port = .ok uri) : parseUri (endpointText domain port) = .ok uri := by
  unfold endpoint at h
  split at h
  · cases h
  · rename_i hparse
    split at h
    · cases h
    · cases h
      exact hparse

/-- What a node can see of a client. -/
def XrayClient.seen (client : XrayClient) : String × Uri := (client.token, client.channel.uri)

theorem nodeContext_seen (laws : LruLaws) {n : ℕ+} {cache : XrayClientCache}
    (hcache : Reachable n cache) {headers : Headers} {params : NodeParams}
    (hparams : nodeParams headers = .ok params) :
    (nodeContext headers cache).1.map XrayClient.seen =
      (endpoint params.domain params.port).map (params.token, ·) := by
  rcases hrun : nodeContext headers cache with ⟨result, cache'⟩
  have hspec := nodeContext_spec laws hparams hrun
  cases result with
  | error e =>
    have herror : endpoint params.domain params.port = .error e := hspec.error_eq
    rw [herror]
    rfl
  | ok client =>
    obtain ⟨htoken, huri⟩ := hspec.client_eq (hcache.faithful laws)
    have huri : endpoint params.domain params.port = .ok client.channel.uri := huri
    rw [huri, Except.map, Except.map, XrayClient.seen, htoken]
    rfl

theorem nodeContext_seen_eq (laws : LruLaws) {n : ℕ+} {a b : XrayClientCache}
    (ha : Reachable n a) (hb : Reachable n b) (headers : Headers) :
    (nodeContext headers a).1.map XrayClient.seen =
      (nodeContext headers b).1.map XrayClient.seen := by
  cases hparams : nodeParams headers with
  | error e => rw [nodeContext_of_error hparams, nodeContext_of_error hparams]
  | ok params => rw [nodeContext_seen laws ha hparams, nodeContext_seen laws hb hparams]

/-- The client of an admitted request has the request's token and a channel for the request's node,
as it has on an empty cache, and each call that an operation makes with it carries exactly this
token. -/
theorem nodeContext_agrees (lru : LruLaws) (header : HeaderLaws) (metadata : MetadataLaws) {n : ℕ+}
    {cache : XrayClientCache} (hcache : Reachable n cache) {headers : Headers}
    {params : NodeParams} (hparams : nodeParams headers = .ok params) :
    (nodeContext headers cache).1.map XrayClient.seen =
      (nodeContext headers (.new n)).1.map XrayClient.seen ∧
    ∀ client, (nodeContext headers cache).1 = .ok client →
      client.token = params.token ∧
      parseUri (endpointText params.domain params.port) = .ok client.channel.uri ∧
      ∀ (e : Endpoint) (ps : e.handler.Params) (body : e.handler.Body) (request : GrpcRequest),
        (toResponse (e.handler.run client ps body)).Asks (.rpc request) →
        request.channel = client.channel ∧
        request.metadata = [("x-api-token", utf8 params.token)] := by
  refine ⟨nodeContext_seen_eq lru hcache .new headers, fun client hclient => ?_⟩
  rcases hrun : nodeContext headers cache with ⟨result, cache'⟩
  rw [hrun] at hclient
  obtain rfl : result = .ok client := hclient
  obtain ⟨htoken, huri⟩ := (nodeContext_spec lru hparams hrun).client_eq (hcache.faithful lru)
  have htoken : client.token = params.token := htoken
  refine ⟨htoken, endpoint_eq_ok huri, fun e ps body request hasks => ?_⟩
  obtain ⟨hchannel, hmeta⟩ := (within_toResponse (calls_run e client ps body)).asks hasks
  rw [htoken, withApiToken_metadata (metadataTryFrom_token header metadata hparams)] at hmeta
  exact ⟨hchannel, hmeta⟩

/-! ### Hosts -/

/-- The host of a URI that is built for a domain is the domain exactly when that is a plain
host. -/
theorem uriHost_eq_iff (laws : UriLaws) {domain : String} {port : UInt16} {uri : Uri}
    (h : parseUri (endpointText domain port) = .ok uri) :
    uriHost uri = domain ↔ UriAuthority.isPlainHost domain.toList = true := by
  rw [endpointText_eq] at h
  have hhost := laws.host _ uri h
  rw [toList_domain_port] at hhost
  rw [← UriAuthority.hostOf_append_colon fun c hc => digits_in_authority port hc,
    ← hhost, String.toList_inj]

theorem uriPort_eq (laws : UriLaws) {domain : String} {port : UInt16} {uri : Uri}
    (h : parseUri (endpointText domain port) = .ok uri)
    (hplain : UriAuthority.isPlainHost domain.toList = true) : uriPort uri = port.toNat := by
  rw [endpointText_eq] at h
  refine laws.port _ uri domain.toList port h ?_
  rw [toList_domain_port]
  refine UriAuthority.afterUserInfo_append_colon (fun c hc => ?_)
    (UriAuthority.isPlainHost_iff.mp hplain).1
  have hdigit := digits_in_authority port hc
  exact ⟨hdigit.1, hdigit.2.1⟩

/-- Whatever the cache holds, a client for a domain and a port has a channel to exactly these. -/
def ReachesNamedNode (n : ℕ+) (domain : String) (port : UInt16) : Prop :=
  ∀ cache, Reachable n cache → ∀ token name client cache',
    cache.getOrCreate domain port token name = (.ok client, cache') →
    uriHost client.channel.uri = domain ∧ uriPort client.channel.uri = port.toNat

/-- A request reaches the host and the port that it names exactly when no channel can be built for
them or the domain is a plain host. -/
theorem reachesNamedNode_iff (lru : LruLaws) (laws : UriLaws) (n : ℕ+) (domain : String)
    (port : UInt16) :
    ReachesNamedNode n domain port ↔
      (∃ e, endpoint domain port = .error e) ∨
      UriAuthority.isPlainHost domain.toList = true := by
  constructor
  · intro h
    cases hend : endpoint domain port with
    | error e => exact Or.inl ⟨e, rfl⟩
    | ok uri =>
      refine Or.inr ?_
      let call : CacheCall := ⟨domain, port, "", none⟩
      rcases hrun : call.run (.new n) with ⟨result, cache'⟩
      have hspec := CacheCall.spec lru hrun
      cases result with
      | error e =>
        have herror : endpoint domain port = .error e := hspec.error_eq
        rw [hend] at herror
        cases herror
      | ok client =>
        have huri : endpoint domain port = .ok client.channel.uri :=
          (hspec.client_eq (Reachable.new.faithful lru)).2
        have hhost := (h _ .new _ _ _ _ hrun).1
        exact (uriHost_eq_iff laws (endpoint_eq_ok huri)).mp hhost
  · intro h cache hcache token name client cache' hrun
    have hspec : CallSpec ⟨domain, port, token, name⟩ cache (.ok client) cache' :=
      CacheCall.spec lru hrun
    have huri : endpoint domain port = .ok client.channel.uri :=
      (hspec.client_eq (hcache.faithful lru)).2
    rcases h with ⟨e, he⟩ | hplain
    · rw [huri] at he
      cases he
    · have hparse := endpoint_eq_ok huri
      exact ⟨(uriHost_eq_iff laws hparse).mpr hplain, uriPort_eq laws hparse hplain⟩

end

open Reference in
/-- A second request for a node, with a token of its own. -/
theorem nodeContext_agrees_second :
    let headers (token : String) : Headers :=
      [("x-node-domain", utf8 "node.example"), ("x-node-token", utf8 token)]
    let cache := (nodeContext (headers "first") (.new 1)).2
    ∃ client request, (nodeContext (headers "second") cache).1 = .ok client ∧
      (nodeContext (headers "second") (.new 1)).1.map XrayClient.seen = .ok client.seen ∧
      client.token = "second" ∧
      (toResponse (getSysStatsHandler.run client () ())).Asks (.rpc request) ∧
      request.metadata = [("x-api-token", utf8 "second")] := by
  intro headers cache
  have hcache : Reachable 1 cache := .request (headers "first") .new
  obtain ⟨hseen, hclients⟩ := nodeContext_agrees lruLaws headerLaws metadataLaws hcache
    (show nodeParams (headers "second") = .ok ⟨"node.example", 443, "second", none⟩ by decide)
  have hadmitted := nodeContext_isOk lruLaws hcache (headers "second")
  cases hclient : (nodeContext (headers "second") cache).1 with
  | error e =>
    rw [hclient, show admitted (headers "second") = true by decide] at hadmitted
    cases hadmitted
  | ok client =>
    obtain ⟨htoken, -, hcalls⟩ := hclients client hclient
    have hasks : (toResponse (getSysStatsHandler.run client () ())).Asks
        (.rpc (client.request .getSysStats)) := .later () .here
    rw [hclient] at hseen
    exact ⟨client, _, rfl, hseen.symm, htoken, hasks, (hcalls .getSysStats () () _ hasks).2⟩

open Reference in
theorem not_reachesNamedNode_userInfo : ¬ReachesNamedNode 1 "user@evil.example" 443 := by
  intro h
  have hhost := (h (.new 1) .new "t" none _ _ rfl).1
  revert hhost
  decide

open Reference in
theorem reachesNamedNode_example : ReachesNamedNode 1 "node.example" 443 :=
  (reachesNamedNode_iff lruLaws uriLaws 1 "node.example" 443).mpr (Or.inr (by decide))

end XrayBridge
