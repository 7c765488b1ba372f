import XrayBridge.Proof.ClientCache
import XrayBridge.Reference

/-! The client cache as an account of the calls so far: it holds the keys that were used last, and
a hit returns what the last miss on its key has built. -/

namespace XrayBridge

open Platform Recency XrayClientCache

section

variable [Platform]

/-- The cache after the calls of a run, which are listed from the latest to the first. -/
def after (n : ℕ+) : List CacheCall → XrayClientCache
  | [] => .new n
  | call :: earlier => (call.run (after n earlier)).2

def requested (n : ℕ+) : List CacheCall → List Key
  | [] => []
  | call :: earlier =>
    match (call.run (after n earlier)).1 with
    | .ok _ => call.key :: requested n earlier
    | .error _ => requested n earlier

/-- The client that the last miss on a key has built: the last call on it after which there is one
channel more than before. -/
def lastMiss (n : ℕ+) (key : Key) : List CacheCall → Option XrayClient
  | [] => none
  | call :: earlier =>
    if call.key = key ∧ (after n (call :: earlier)).connects ≠ (after n earlier).connects then
      (call.run (after n earlier)).1.toOption
    else lastMiss n key earlier

theorem reachable_after (n : ℕ+) (calls : List CacheCall) : Reachable n (after n calls) := by
  induction calls with
  | nil => exact .new
  | cons call earlier ih => exact .call call ih

theorem after_nil_entries (laws : LruLaws) (n : ℕ+) : (after n []).entries = [] := laws.iter_new n

theorem keys_after (laws : LruLaws) (n : ℕ+) (calls : List CacheCall) :
    keys (after n calls).entries = recent n (requested n calls) := by
  induction calls with
  | nil =>
    rw [after_nil_entries laws]
    simp [requested, recent]
  | cons call earlier ih =>
    rcases hrun : call.run (after n earlier) with ⟨result, cache⟩
    have hafter : after n (call :: earlier) = cache := congrArg Prod.snd hrun
    rw [hafter, requested, hrun]
    cases CacheCall.spec laws hrun with
    | hit found entries =>
      rw [entries]
      exact keys_promote_recent ih (mem_keys_of_lookup found)
    | failed missing refused entries =>
      rw [entries]
      exact ih
    | built missing accepted entries =>
      rw [entries, (reachable_after n earlier).capacity laws]
      exact keys_insert_recent n.pos ih (lookup_eq_none_iff.mp missing)

/-- Every cached client is the one that the last miss on its key has built. -/
theorem lastMiss_of_mem (laws : LruLaws) {n : ℕ+} {calls : List CacheCall} {key : Key}
    {client : XrayClient} (h : (key, client) ∈ (after n calls).entries) :
    lastMiss n key calls = some client := by
  induction calls with
  | nil =>
    rw [after_nil_entries laws] at h
    cases h
  | cons call earlier ih =>
    rcases hrun : call.run (after n earlier) with ⟨result, cache⟩
    have hafter : after n (call :: earlier) = cache := congrArg Prod.snd hrun
    rw [hafter] at h
    rw [lastMiss, hafter, hrun]
    cases CacheCall.spec laws hrun with
    | hit found entries capacity connects =>
      rw [if_neg (by simp [connects])]
      rw [entries] at h
      exact ih (mem_promote h)
    | failed missing refused entries capacity connects =>
      rw [if_neg (by simp [connects])]
      rw [entries] at h
      exact ih h
    | built missing accepted entries capacity connects =>
      rw [entries] at h
      rcases mem_insert_of_notMem (lookup_eq_none_iff.mp missing) h with ⟨rfl, rfl⟩ | ⟨hkey, hmem⟩
      · rw [if_pos ⟨rfl, by omega⟩]
        rfl
      · rw [if_neg fun h => hkey h.1.symm]
        exact ih hmem

/-! ### Successful calls -/

/-- The calls of a history that a channel can be built for. -/
def accepted (calls : List CacheCall) : List CacheCall :=
  calls.filter fun call => (endpoint call.domain call.port).isOk

theorem accepted_cons_ok {call : CacheCall} {earlier : List CacheCall} {uri : Uri}
    (h : endpoint call.domain call.port = .ok uri) :
    accepted (call :: earlier) = call :: accepted earlier := by
  rw [accepted, List.filter_cons_of_pos (by rw [h]; rfl), accepted]

theorem accepted_cons_error {call : CacheCall} {earlier : List CacheCall} {e : AppError}
    (h : endpoint call.domain call.port = .error e) :
    accepted (call :: earlier) = accepted earlier := by
  rw [accepted, List.filter_cons_of_neg (by rw [h]; exact Bool.false_ne_true), accepted]

theorem requested_eq (laws : LruLaws) (n : ℕ+) (calls : List CacheCall) :
    requested n calls = (accepted calls).map CacheCall.key := by
  induction calls with
  | nil => rfl
  | cons call earlier ih =>
    rcases hrun : call.run (after n earlier) with ⟨result, cache⟩
    have hspec := CacheCall.spec laws hrun
    rw [requested, hrun]
    cases result with
    | error e =>
      rw [accepted_cons_error hspec.error_eq]
      exact ih
    | ok client =>
      have hfaithful := (reachable_after n earlier).faithful laws
      rw [accepted_cons_ok (hspec.client_eq hfaithful).2, List.map_cons, ← ih]

/-- The client cache holds the keys that were used last by calls that a channel can be built for.
Exactly these calls succeed; one of them is a hit exactly for the keys that the cache holds, and a
hit returns what the last miss has built.  A call that fails changes nothing. -/
theorem clientCache_leastRecentlyUsed (laws : LruLaws) (n : ℕ+) (earlier : List CacheCall) :
    keys (after n earlier).entries = recent n (requested n earlier) ∧
    requested n earlier = (accepted earlier).map CacheCall.key ∧
    ∀ (call : CacheCall) (result : Except AppError XrayClient) (cache : XrayClientCache),
      call.run (after n earlier) = (result, cache) →
      match result with
      | .ok client =>
        (∃ uri, endpoint call.domain call.port = .ok uri) ∧
        (cache.connects = (after n earlier).connects ↔
          call.key ∈ requested n earlier ∧ usedSince call.key (requested n earlier) < n) ∧
        (cache.connects = (after n earlier).connects →
          lastMiss n call.key earlier = some client)
      | .error e =>
        endpoint call.domain call.port = .error e ∧ cache.entries = (after n earlier).entries := by
  refine ⟨keys_after laws n earlier, requested_eq laws n earlier, fun call result cache hrun => ?_⟩
  have hmem : call.key ∈ requested n earlier ∧ usedSince call.key (requested n earlier) < n ↔
      call.key ∈ keys (after n earlier).entries := by
    rw [keys_after laws, mem_recent_iff]
  cases CacheCall.spec laws hrun with
  | hit found entries capacity connects =>
    have huri := ((reachable_after n earlier).faithful laws _ _ (mem_of_lookup found)).2
    refine ⟨⟨_, huri⟩, ?_, fun _ => lastMiss_of_mem laws (mem_of_lookup found)⟩
    exact ⟨fun _ => hmem.mpr (mem_keys_of_lookup found), fun _ => connects⟩
  | failed missing refused entries => exact ⟨refused, entries⟩
  | built missing accepted entries capacity connects =>
    have hnot : call.key ∉ keys (after n earlier).entries := lookup_eq_none_iff.mp missing
    refine ⟨⟨_, accepted⟩, ?_, fun h => absurd h (by omega)⟩
    exact ⟨fun h => absurd h (by omega), fun h => absurd (hmem.mp h) hnot⟩

end

open Reference

def callA : CacheCall := ⟨"a.example", 443, "t", none⟩

def callB : CacheCall := ⟨"b.example", 443, "t", none⟩

def callC : CacheCall := ⟨"c.example", 443, "t", none⟩

/-- A call that no URI can be built for. -/
def badCall : CacheCall := ⟨"no host", 443, "t", none⟩

/-- Two misses, a hit, a call that fails, and a miss that evicts, on a cache for two clients. -/
def evictingCalls : List CacheCall := [callC, badCall, callA, callB, callA]

/-- The client that is still cached is the one that its first call has built, the other one is
built again, and a call that fails leaves both alone. -/
theorem clientCache_evicts :
    keys (after 2 evictingCalls).entries = [callC.key, callA.key] ∧
    (∃ client cache, callA.run (after 2 evictingCalls) = (.ok client, cache) ∧
      cache.connects = 3 ∧ lastMiss 2 callA.key evictingCalls = some client) ∧
    (∃ client cache, callB.run (after 2 evictingCalls) = (.ok client, cache) ∧
      cache.connects ≠ 3) ∧
    ∃ e cache, badCall.run (after 2 evictingCalls) = (.error e, cache) ∧
      cache.entries = (after 2 evictingCalls).entries := by
  obtain ⟨hkeys, -, hcalls⟩ := clientCache_leastRecentlyUsed lruLaws 2 evictingCalls
  have hbuilt : (after 2 evictingCalls).connects = 3 := by decide
  have hrequested : requested 2 evictingCalls = [callC.key, callA.key, callB.key, callA.key] := by
    decide
  rw [hrequested] at hkeys hcalls
  rw [hbuilt] at hcalls
  refine ⟨hkeys.trans (by decide), ⟨⟨⟨⟨"a.example", 443⟩, 0⟩, "t", none⟩, _, rfl, ?_⟩,
    ⟨⟨⟨⟨"b.example", 443⟩, 3⟩, "t", none⟩, _, rfl, ?_⟩, _, _, rfl, ?_⟩
  · obtain ⟨-, hhit, hlast⟩ := hcalls callA _ _ rfl
    have hconnects := hhit.mpr (by decide)
    exact ⟨hconnects, hlast hconnects⟩
  · obtain ⟨-, hhit, -⟩ := hcalls callB _ _ rfl
    exact fun hconnects => absurd (hhit.mp hconnects) (by decide)
  · exact (hcalls badCall _ _ rfl).2

end XrayBridge
