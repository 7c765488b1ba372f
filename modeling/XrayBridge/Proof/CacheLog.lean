import XrayBridge.Proof.CacheHistory

/-! The events of the client cache, against what a call does to the entries. -/

namespace XrayBridge

open Platform Recency XrayClientCache

section

variable [Platform]

/-- The event of an eviction to come on a full cache, which names the entry that was used least
recently. -/
def XrayClientCache.evictions (cache : XrayClientCache) : List TraceEvent :=
  if cache.capacity ≤ cache.entries.length then
    cache.entries.getLast?.toList.map fun entry => .evictingOldest entry.1.1 entry.1.2.1
  else []

/-- The events of a miss. -/
def CacheCall.missEvents (call : CacheCall) (cache : XrayClientCache) : List TraceEvent :=
  cache.evictions ++
    match endpoint call.domain call.port with
    | .ok _ =>
      [.createdClient call.domain call.port (cache.entries.length + 1) cache.capacity]
    | .error _ => []

theorem evictions_congr {a b : XrayClientCache} (hentries : a.entries = b.entries)
    (hcapacity : a.capacity = b.capacity) : a.evictions = b.evictions := by
  rw [evictions, evictions, hentries, hcapacity]

theorem evictions_of_lt {cache : XrayClientCache} (h : cache.entries.length < cache.capacity) :
    cache.evictions = [] := by
  rw [evictions, if_neg (by omega)]

theorem evictions_of_full {cache : XrayClientCache} (h : cache.capacity ≤ cache.entries.length)
    (hpos : 0 < cache.capacity) :
    ∃ domain port, cache.evictions = [.evictingOldest domain port] := by
  have hne : cache.entries ≠ [] := List.ne_nil_of_length_pos (by omega)
  rw [evictions, if_pos h, List.getLast?_eq_some_getLast hne]
  exact ⟨_, _, rfl⟩

theorem logEviction_events (laws : LruLaws) (cache : XrayClientCache) :
    cache.logEviction.events = cache.events ++ cache.evictions := by
  unfold logEviction evictions capacity entries
  rw [laws.len, laws.peek]
  split
  · cases (lruIter cache.inner).getLast? with
    | none => simp
    | some entry => rfl
  · simp

/-- The events that a call adds to those of the cache. -/
def CacheCall.emitted (call : CacheCall) (cache : XrayClientCache) : List TraceEvent :=
  (call.run cache).2.events.drop cache.events.length

theorem emitted_of_events {call : CacheCall} {cache : XrayClientCache} {events : List TraceEvent}
    (h : (call.run cache).2.events = cache.events ++ events) : call.emitted cache = events := by
  rw [CacheCall.emitted, h, List.drop_left]

/-- A hit emits nothing, and a miss emits the eviction to come on a full cache and, when a channel
can be built, the new client. -/
theorem run_events (laws : LruLaws) (call : CacheCall) (cache : XrayClientCache) :
    (call.run cache).2.events =
      cache.events ++ if call.key ∈ keys cache.entries then [] else call.missEvents cache := by
  have hgot := got laws cache call.key
  generalize hget : lruGet cache.inner call.key = found at hgot
  cases hgot with
  | hit found =>
    rw [if_pos (mem_keys_of_lookup found), CacheCall.run_of_hit hget, List.append_nil]
  | @miss inner missing entries capacity =>
    have hsame : ({ cache with inner } : XrayClientCache).evictions = cache.evictions :=
      evictions_congr entries capacity
    rw [if_neg (lookup_eq_none_iff.mp missing), CacheCall.run_of_miss hget, CacheCall.missEvents]
    cases endpoint call.domain call.port with
    | error e =>
      show (logEviction { cache with inner }).events = _
      rw [logEviction_events laws, hsame, List.append_nil]
    | ok uri =>
      show (logEviction { cache with inner }).events ++ _ = _
      rw [logEviction_events laws, hsame, laws.len, entries, capacity, List.append_assoc]

theorem emitted_eq (laws : LruLaws) (call : CacheCall) (cache : XrayClientCache) :
    call.emitted cache = if call.key ∈ keys cache.entries then [] else call.missEvents cache :=
  emitted_of_events (run_events laws call cache)

/-- What a call logs is what it does to the entries: it announces an eviction exactly when an entry
goes, with the domain and the port of that entry, and a new client exactly when one is added, with
the number of entries that there are then, which fits the capacity. -/
structure LogTells (cache : XrayClientCache) (call : CacheCall) : Prop where
  evicting : (∃ domain port, .evictingOldest domain port ∈ call.emitted cache) ↔
    ∃ key ∈ keys cache.entries, key ∉ keys (call.run cache).2.entries
  evicted : ∀ domain port, .evictingOldest domain port ∈ call.emitted cache →
    ∃ token, (domain, port, token) ∈ keys cache.entries ∧
      (domain, port, token) ∉ keys (call.run cache).2.entries
  creating : (∃ domain port cached max, .createdClient domain port cached max ∈
      call.emitted cache) ↔
    ∃ key ∈ keys (call.run cache).2.entries, key ∉ keys cache.entries
  created : ∀ domain port cached max, .createdClient domain port cached max ∈
      call.emitted cache →
    cached = (call.run cache).2.entries.length ∧ cached ≤ max

theorem logTells_of_nothing {cache : XrayClientCache} {call : CacheCall}
    (hemitted : call.emitted cache = [])
    (hkeys : ∀ key, key ∈ keys (call.run cache).2.entries ↔ key ∈ keys cache.entries) :
    LogTells cache call := by
  constructor
  · simp [hemitted, hkeys]
  · simp [hemitted]
  · simp [hemitted, hkeys]
  · simp [hemitted]

theorem logTells_of_added {cache : XrayClientCache} {call : CacheCall} {client : XrayClient}
    (hmissing : call.key ∉ keys cache.entries) (hroom : cache.entries.length < cache.capacity)
    (hemitted : call.emitted cache =
      [.createdClient call.domain call.port (cache.entries.length + 1) cache.capacity])
    (hentries : (call.run cache).2.entries = (call.key, client) :: cache.entries) :
    LogTells cache call := by
  constructor
  · rw [hemitted, hentries, keys_cons]
    refine iff_of_false (by simp) ?_
    rintro ⟨key, hmem, hnot⟩
    exact hnot (List.mem_cons_of_mem _ hmem)
  · simp [hemitted]
  · rw [hemitted, hentries, keys_cons]
    exact iff_of_true ⟨_, _, _, _, List.mem_singleton_self _⟩
      ⟨call.key, List.mem_cons_self, hmissing⟩
  · rw [hemitted, hentries]
    intro domain port cached max hmem
    cases List.mem_singleton.mp hmem
    exact ⟨rfl, hroom⟩

/-- A miss on a full cache announces an eviction that does not take place, or counts the entry that
it displaces. -/
theorem not_logTells_of_full (laws : LruLaws) {cache : XrayClientCache} {call : CacheCall}
    (hpos : 0 < cache.capacity) (hmissing : call.key ∉ keys cache.entries)
    (hfull : cache.capacity ≤ cache.entries.length) : ¬LogTells cache call := by
  intro h
  have hemitted := emitted_eq laws call cache
  obtain ⟨domain, port, hevictions⟩ := evictions_of_full hfull hpos
  rw [if_neg hmissing, CacheCall.missEvents, hevictions] at hemitted
  rcases hrun : call.run cache with ⟨result, cache'⟩
  cases CacheCall.spec laws hrun with
  | hit found => exact hmissing (mem_keys_of_lookup found)
  | failed missing refused entries =>
    obtain ⟨key, hmem, hnot⟩ := h.evicting.mp ⟨domain, port, by rw [hemitted]; simp⟩
    rw [hrun, entries] at hnot
    exact hnot hmem
  | built missing accepted =>
    rw [accepted] at hemitted
    have hmem : .createdClient call.domain call.port (cache.entries.length + 1) cache.capacity ∈
        call.emitted cache := by
      rw [hemitted]
      exact List.mem_append_right _ (List.mem_singleton_self _)
    have hcached := (h.created _ _ _ _ hmem).2
    omega

/-- The log of a call tells what happened exactly when the call finds its key or the cache has room
for one more entry. -/
theorem logTells_iff (laws : LruLaws) {n : ℕ+} {cache : XrayClientCache}
    (hcache : Reachable n cache) (call : CacheCall) :
    LogTells cache call ↔ call.key ∈ keys cache.entries ∨ cache.entries.length < n := by
  have hcapacity := hcache.capacity laws
  have hemitted := emitted_eq laws call cache
  rw [← hcapacity]
  constructor
  · intro h
    by_contra hnot
    rw [not_or, not_lt] at hnot
    have hpos : 0 < cache.capacity := by rw [hcapacity]; exact n.pos
    exact not_logTells_of_full laws hpos hnot.1 hnot.2 h
  · intro h
    rcases hrun : call.run cache with ⟨result, cache'⟩
    have hafter : (call.run cache).2 = cache' := congrArg Prod.snd hrun
    cases CacheCall.spec laws hrun with
    | hit found entries =>
      have hfound := mem_keys_of_lookup found
      rw [if_pos hfound] at hemitted
      refine logTells_of_nothing hemitted fun key => ?_
      rw [hafter, entries, mem_keys_promote]
    | failed missing refused entries =>
      have hmissing := lookup_eq_none_iff.mp missing
      rw [if_neg hmissing, CacheCall.missEvents, refused,
        evictions_of_lt (h.resolve_left hmissing)] at hemitted
      apply logTells_of_nothing hemitted
      simp [hafter, entries]
    | built missing accepted entries =>
      have hmissing := lookup_eq_none_iff.mp missing
      have hroom := h.resolve_left hmissing
      rw [if_neg hmissing, CacheCall.missEvents, accepted, evictions_of_lt hroom] at hemitted
      apply logTells_of_added hmissing hroom hemitted
      rw [hafter, entries, insert_of_notMem hmissing, if_pos hroom]

end

open Reference

/-- Calls for a first node, for a second one and for a text that is no host. -/
def firstCall : CacheCall := ⟨"a.example", 443, "t", none⟩
def secondCall : CacheCall := ⟨"b.example", 443, "t", none⟩
def brokenCall : CacheCall := ⟨"no host", 443, "t", none⟩

/-- On a full cache of one entry, a new client is logged as the second of one, and a call that fails
logs an eviction. -/
theorem not_logTells_full :
    Reachable 1 (after 1 [firstCall]) ∧ ¬LogTells (after 1 [firstCall]) secondCall ∧
      ¬LogTells (after 1 [firstCall]) brokenCall := by
  refine ⟨.call firstCall .new, fun h => ?_, fun h => ?_⟩
  · have hcached := (h.created "b.example" 443 2 1 (by decide)).2
    omega
  · obtain ⟨token, hmem, hnot⟩ := h.evicted "a.example" 443 (by decide)
    exact hnot hmem

theorem logTells_first : LogTells (after 1 []) firstCall :=
  (logTells_iff lruLaws .new firstCall).mpr (Or.inr (by decide))

end XrayBridge
