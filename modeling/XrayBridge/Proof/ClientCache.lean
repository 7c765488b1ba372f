import XrayBridge.Nodes

/-! The client cache: what a call does to the entries, the caches that calls lead to, and the
invariant that each client belongs to its key. -/

namespace XrayBridge

open Platform Recency

section

variable [Platform]

namespace XrayClientCache

def entries (cache : XrayClientCache) : List (Key × XrayClient) := lruIter cache.inner

def capacity (cache : XrayClientCache) : Nat := lruCap cache.inner

@[simp] theorem emit_inner (cache : XrayClientCache) (event : TraceEvent) :
    (cache.emit event).inner = cache.inner := rfl

@[simp] theorem emit_connects (cache : XrayClientCache) (event : TraceEvent) :
    (cache.emit event).connects = cache.connects := rfl

@[simp] theorem emit_entries (cache : XrayClientCache) (event : TraceEvent) :
    (cache.emit event).entries = cache.entries := rfl

@[simp] theorem emit_capacity (cache : XrayClientCache) (event : TraceEvent) :
    (cache.emit event).capacity = cache.capacity := rfl

@[simp] theorem logEviction_inner (cache : XrayClientCache) :
    cache.logEviction.inner = cache.inner := by
  unfold logEviction
  split
  · split <;> rfl
  · rfl

@[simp] theorem logEviction_connects (cache : XrayClientCache) :
    cache.logEviction.connects = cache.connects := by
  unfold logEviction
  split
  · split <;> rfl
  · rfl

end XrayClientCache

open XrayClientCache

/-- A call of `get_or_create`. -/
structure CacheCall where
  domain : String
  port : UInt16
  token : String
  name : Option String

namespace CacheCall

def key (call : CacheCall) : Key := (call.domain, call.port, call.token)

def run (call : CacheCall) (cache : XrayClientCache) :
    Except AppError XrayClient × XrayClientCache :=
  cache.getOrCreate call.domain call.port call.token call.name

def client (call : CacheCall) (uri : Uri) (serial : Nat) : XrayClient :=
  { channel := ⟨uri, serial⟩, token := call.token, name := call.name }

end CacheCall

/-- What a call does: it returns a cached client and makes it the most recent one, or it fails and
leaves the entries alone, or it builds a channel and caches a new client. -/
inductive CallSpec (call : CacheCall) (cache : XrayClientCache) :
    Except AppError XrayClient → XrayClientCache → Prop where
  | hit {client : XrayClient} {after : XrayClientCache}
      (found : lookup call.key cache.entries = some client)
      (entries : after.entries = promote call.key cache.entries)
      (capacity : after.capacity = cache.capacity)
      (connects : after.connects = cache.connects) : CallSpec call cache (.ok client) after
  | failed {e : AppError} {after : XrayClientCache}
      (missing : lookup call.key cache.entries = none)
      (refused : endpoint call.domain call.port = .error e)
      (entries : after.entries = cache.entries)
      (capacity : after.capacity = cache.capacity)
      (connects : after.connects = cache.connects) : CallSpec call cache (.error e) after
  | built {uri : Uri} {after : XrayClientCache}
      (missing : lookup call.key cache.entries = none)
      (accepted : endpoint call.domain call.port = .ok uri)
      (entries : after.entries = Recency.insert cache.capacity call.key
        (call.client uri cache.connects) cache.entries)
      (capacity : after.capacity = cache.capacity)
      (connects : after.connects = cache.connects + 1) :
      CallSpec call cache (.ok (call.client uri cache.connects)) after

theorem CacheCall.run_of_hit {call : CacheCall} {cache : XrayClientCache} {client : XrayClient}
    {inner : LruCache Key XrayClient}
    (h : lruGet cache.inner call.key = (some client, inner)) :
    call.run cache = (.ok client, { cache with inner }) := by
  rw [CacheCall.key] at h
  unfold CacheCall.run getOrCreate
  simp only [h]

theorem CacheCall.run_of_miss {call : CacheCall} {cache : XrayClientCache}
    {inner : LruCache Key XrayClient} (h : lruGet cache.inner call.key = (none, inner)) :
    call.run cache =
      match endpoint call.domain call.port with
      | .error e => (.error e, logEviction { cache with inner })
      | .ok uri => (.ok (call.client uri cache.connects), {
          inner := lruPut inner call.key (call.client uri cache.connects)
          connects := cache.connects + 1
          events := (logEviction { cache with inner }).events ++
            [.createdClient call.domain call.port (lruLen inner + 1) (lruCap inner)] }) := by
  rw [CacheCall.key] at h
  unfold CacheCall.run getOrCreate
  simp only [h, logEviction_inner, logEviction_connects, emit_inner, emit_connects]
  rfl

/-- What `LruCache::get` does to the entries of the cache. -/
inductive Got (cache : XrayClientCache) (key : Key) :
    Option XrayClient × LruCache Key XrayClient → Prop where
  | hit {client : XrayClient} {inner : LruCache Key XrayClient}
      (found : lookup key cache.entries = some client)
      (entries : lruIter inner = promote key cache.entries)
      (capacity : lruCap inner = cache.capacity) : Got cache key (some client, inner)
  | miss {inner : LruCache Key XrayClient} (missing : lookup key cache.entries = none)
      (entries : lruIter inner = cache.entries) (capacity : lruCap inner = cache.capacity) :
      Got cache key (none, inner)

theorem got (laws : LruLaws) (cache : XrayClientCache) (key : Key) :
    Got cache key (lruGet cache.inner key) := by
  have hvalue := laws.get_value cache.inner key
  have hiter := laws.iter_get cache.inner key
  have hcap := laws.cap_get cache.inner key
  generalize lruGet cache.inner key = result at hvalue hiter hcap ⊢
  obtain ⟨found, inner⟩ := result
  cases found with
  | some client => exact .hit hvalue.symm hiter hcap
  | none =>
    have hmissing : lookup key cache.entries = none := hvalue.symm
    exact .miss hmissing (hiter.trans (promote_of_notMem (lookup_eq_none_iff.mp hmissing))) hcap

theorem CacheCall.spec (laws : LruLaws) {call : CacheCall} {cache cache' : XrayClientCache}
    {result : Except AppError XrayClient} (h : call.run cache = (result, cache')) :
    CallSpec call cache result cache' := by
  have hgot := got laws cache call.key
  generalize hget : lruGet cache.inner call.key = found at hgot
  cases hgot with
  | hit found entries capacity =>
    rw [CacheCall.run_of_hit hget] at h
    cases h
    exact .hit found entries capacity rfl
  | @miss inner missing entries capacity =>
    rw [CacheCall.run_of_miss hget] at h
    cases hend : endpoint call.domain call.port with
    | error e =>
      simp only [hend] at h
      cases h
      refine .failed missing hend ?_ ?_ ?_
      · rw [XrayClientCache.entries, logEviction_inner]
        exact entries
      · rw [XrayClientCache.capacity, logEviction_inner]
        exact capacity
      · rw [logEviction_connects]
    | ok uri =>
      simp only [hend] at h
      cases h
      refine .built missing hend ?_ ?_ rfl
      · simp only [XrayClientCache.entries, laws.iter_put, entries, capacity]
      · simp only [XrayClientCache.capacity, laws.cap_put]
        exact capacity

/-! ### Reachable caches -/

def NodeParams.call (params : NodeParams) : CacheCall :=
  ⟨params.domain, params.port, params.token, params.name⟩

theorem nodeParams_eq_ok {headers : Headers} {params : NodeParams}
    (h : nodeParams headers = .ok params) :
    requiredHeader headers "x-node-domain" "缺少 X-Node-Domain header" = .ok params.domain ∧
    requiredHeader headers "x-node-token" "缺少 X-Node-Token header" = .ok params.token ∧
    params.port = (((headers.get "x-node-port").bind toStr).bind parseU16).getD 443 ∧
    params.name = (headers.get "x-node-name").bind toStr := by
  obtain ⟨domain, hdomain, h⟩ := bind_eq_ok_iff.mp h
  obtain ⟨token, htoken, h⟩ := bind_eq_ok_iff.mp h
  cases h
  exact ⟨hdomain, htoken, rfl, rfl⟩

theorem nodeContext_of_error {headers : Headers} {e : AppError} (h : nodeParams headers = .error e)
    (cache : XrayClientCache) : nodeContext headers cache = (.error e, cache) := by
  rw [nodeContext, h]

theorem nodeContext_of_ok {headers : Headers} {params : NodeParams}
    (h : nodeParams headers = .ok params) (cache : XrayClientCache) :
    nodeContext headers cache = params.call.run
      (cache.emit (.nodeContextResolved params.domain params.port params.name)) := by
  rw [nodeContext, h]
  rfl

theorem nodeContext_spec (laws : LruLaws) {headers : Headers} {params : NodeParams}
    {cache cache' : XrayClientCache} {result : Except AppError XrayClient}
    (hparams : nodeParams headers = .ok params) (h : nodeContext headers cache = (result, cache')) :
    CallSpec params.call cache result cache' := by
  rw [nodeContext_of_ok hparams] at h
  cases CacheCall.spec laws h with
  | hit found entries capacity connects => exact .hit found entries capacity connects
  | failed missing refused entries capacity connects =>
    exact .failed missing refused entries capacity connects
  | built missing accepted entries capacity connects =>
    exact .built missing accepted entries capacity connects

/-- The caches of capacity `n` that calls and requests lead to, in any number and order. -/
inductive Reachable (n : ℕ+) : XrayClientCache → Prop where
  | new : Reachable n (.new n)
  | call {cache : XrayClientCache} (call : CacheCall) :
      Reachable n cache → Reachable n (call.run cache).2
  | request {cache : XrayClientCache} (headers : Headers) :
      Reachable n cache → Reachable n (nodeContext headers cache).2

theorem CallSpec.capacity_eq {call : CacheCall} {cache cache' : XrayClientCache}
    {result : Except AppError XrayClient} (h : CallSpec call cache result cache') :
    cache'.capacity = cache.capacity := by
  cases h <;> assumption

/-- What a new cache has and a call keeps, every reachable cache has. -/
theorem Reachable.of_step (laws : LruLaws) {n : ℕ+} {P : XrayClientCache → Prop} (hnew : P (.new n))
    (hstep : ∀ call cache result after, CallSpec call cache result after → P cache → P after)
    {cache : XrayClientCache} (h : Reachable n cache) : P cache := by
  induction h with
  | new => exact hnew
  | call call _ ih => exact hstep _ _ _ _ (CacheCall.spec laws rfl) ih
  | @request cache headers _ ih =>
    cases hparams : nodeParams headers with
    | error e => rwa [nodeContext_of_error hparams]
    | ok params => exact hstep _ _ _ _ (nodeContext_spec laws hparams rfl) ih

theorem Reachable.capacity (laws : LruLaws) {n : ℕ+} {cache : XrayClientCache}
    (h : Reachable n cache) : cache.capacity = n :=
  h.of_step laws (laws.cap_new n) fun _ _ _ _ hspec ih => hspec.capacity_eq.trans ih

/-- Each client has the token of its key, and a channel built for the domain and the port of its
key. -/
def Faithful (cache : XrayClientCache) : Prop :=
  ∀ key client, (key, client) ∈ cache.entries →
    client.token = key.2.2 ∧ endpoint key.1 key.2.1 = .ok client.channel.uri

theorem CallSpec.faithful {call : CacheCall} {cache cache' : XrayClientCache}
    {result : Except AppError XrayClient} (h : CallSpec call cache result cache')
    (hcache : Faithful cache) : Faithful cache' := by
  intro key client hmem
  cases h with
  | hit found entries =>
    rw [entries] at hmem
    exact hcache key client (mem_promote hmem)
  | failed missing refused entries =>
    rw [entries] at hmem
    exact hcache key client hmem
  | built missing accepted entries =>
    rw [entries] at hmem
    rcases mem_insert hmem with heq | hmem
    · rw [Prod.mk.injEq] at heq
      obtain ⟨rfl, rfl⟩ := heq
      exact ⟨rfl, accepted⟩
    · exact hcache key client hmem

theorem Reachable.faithful (laws : LruLaws) {n : ℕ+} {cache : XrayClientCache}
    (h : Reachable n cache) : Faithful cache := by
  refine h.of_step laws ?_ fun _ _ _ _ hspec ih => hspec.faithful ih
  intro key client hmem
  have hempty : (XrayClientCache.new n).entries = [] := laws.iter_new n
  rw [hempty] at hmem
  cases hmem

theorem CallSpec.client_eq {call : CacheCall} {cache cache' : XrayClientCache}
    {client : XrayClient} (h : CallSpec call cache (.ok client) cache')
    (hcache : Faithful cache) :
    client.token = call.token ∧ endpoint call.domain call.port = .ok client.channel.uri := by
  cases h with
  | hit found => exact hcache _ _ (mem_of_lookup found)
  | built missing accepted => exact ⟨rfl, accepted⟩

theorem CallSpec.error_eq {call : CacheCall} {cache cache' : XrayClientCache} {e : AppError}
    (h : CallSpec call cache (.error e) cache') : endpoint call.domain call.port = .error e := by
  cases h with
  | failed missing refused => exact refused

/-! ### Caches that cannot be told apart -/

/-- Two caches with the same entries and the same channels built so far, which may differ in their
events. -/
structure SameContents (a b : XrayClientCache) : Prop where
  entries : a.entries = b.entries
  capacity : a.capacity = b.capacity
  connects : a.connects = b.connects

theorem SameContents.refl (a : XrayClientCache) : SameContents a a := ⟨rfl, rfl, rfl⟩

theorem SameContents.symm {a b : XrayClientCache} (h : SameContents a b) : SameContents b a :=
  ⟨h.entries.symm, h.capacity.symm, h.connects.symm⟩

theorem SameContents.trans {a b c : XrayClientCache} (hab : SameContents a b)
    (hbc : SameContents b c) : SameContents a c :=
  ⟨hab.entries.trans hbc.entries, hab.capacity.trans hbc.capacity,
    hab.connects.trans hbc.connects⟩

theorem CallSpec.sameContents {call : CacheCall} {a b a' b' : XrayClientCache}
    {r s : Except AppError XrayClient} (ha : CallSpec call a r a') (hb : CallSpec call b s b')
    (hab : SameContents a b) : r = s ∧ SameContents a' b' := by
  obtain ⟨hentries, hcapacity, hconnects⟩ := hab
  cases ha with
  | hit found entries capacity connects =>
    rw [hentries] at found entries
    cases hb with
    | hit found' entries' capacity' connects' =>
      rw [found] at found'
      cases found'
      exact ⟨rfl, by rw [entries, entries'], by rw [capacity, capacity', hcapacity],
        by rw [connects, connects', hconnects]⟩
    | failed missing => rw [missing] at found; cases found
    | built missing => rw [missing] at found; cases found
  | failed missing refused entries capacity connects =>
    rw [hentries] at missing
    cases hb with
    | hit found => rw [missing] at found; cases found
    | failed missing' refused' entries' capacity' connects' =>
      rw [refused] at refused'
      cases refused'
      exact ⟨rfl, by rw [entries, entries', hentries], by rw [capacity, capacity', hcapacity],
        by rw [connects, connects', hconnects]⟩
    | built missing' accepted => rw [refused] at accepted; cases accepted
  | built missing accepted entries capacity connects =>
    rw [hentries, hcapacity, hconnects] at entries
    rw [hentries] at missing
    cases hb with
    | hit found => rw [missing] at found; cases found
    | failed missing' refused => rw [refused] at accepted; cases accepted
    | built missing' accepted' entries' capacity' connects' =>
      rw [accepted] at accepted'
      cases accepted'
      exact ⟨by rw [hconnects], by rw [entries, entries'],
        by rw [capacity, capacity', hcapacity], by rw [connects, connects', hconnects]⟩

theorem nodeContext_sameContents (laws : LruLaws) (headers : Headers) {a b : XrayClientCache}
    (h : SameContents a b) :
    (nodeContext headers a).1 = (nodeContext headers b).1 ∧
      SameContents (nodeContext headers a).2 (nodeContext headers b).2 := by
  cases hparams : nodeParams headers with
  | error e =>
    rw [nodeContext_of_error hparams, nodeContext_of_error hparams]
    exact ⟨rfl, h⟩
  | ok params =>
    exact (nodeContext_spec laws hparams rfl).sameContents (nodeContext_spec laws hparams rfl) h

/-- Whether the headers name a node that a channel can be built for. -/
def admitted (headers : Headers) : Bool :=
  match nodeParams headers with
  | .ok params => (endpoint params.domain params.port).isOk
  | .error _ => false

theorem nodeContext_isOk (laws : LruLaws) {n : ℕ+} {cache : XrayClientCache}
    (hcache : Reachable n cache) (headers : Headers) :
    (nodeContext headers cache).1.isOk = admitted headers := by
  unfold admitted
  cases hparams : nodeParams headers with
  | error e =>
    rw [nodeContext_of_error hparams]
    rfl
  | ok params =>
    rcases hrun : nodeContext headers cache with ⟨result, cache'⟩
    have hspec := nodeContext_spec laws hparams hrun
    cases result with
    | error e =>
      have herror : endpoint params.domain params.port = .error e := hspec.error_eq
      simp only [herror, Except.isOk, Except.toBool]
    | ok client =>
      have hok : endpoint params.domain params.port = .ok client.channel.uri :=
        (hspec.client_eq (hcache.faithful laws)).2
      simp only [hok, Except.isOk, Except.toBool]

theorem nodeContext_not_admitted (laws : LruLaws) {n : ℕ+} {cache : XrayClientCache}
    (hcache : Reachable n cache) {headers : Headers} (h : admitted headers = false) :
    SameContents (nodeContext headers cache).2 cache := by
  have hok := nodeContext_isOk laws hcache headers
  cases hparams : nodeParams headers with
  | error e =>
    rw [nodeContext_of_error hparams]
    exact .refl cache
  | ok params =>
    rcases hrun : nodeContext headers cache with ⟨result, cache'⟩
    rw [hrun, h] at hok
    cases nodeContext_spec laws hparams hrun with
    | hit => cases hok
    | failed missing refused entries capacity connects => exact ⟨entries, capacity, connects⟩
    | built => cases hok

end

end XrayBridge
