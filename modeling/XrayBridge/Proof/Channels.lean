import Mathlib.Data.Set.Card
import XrayBridge.Lib.Paging
import XrayBridge.Proof.CacheHistory
import XrayBridge.Proof.Interference
import XrayBridge.Proof.Server

/-! The channels of the running program: whose calls each of them carries, how many are built, and
how many are in use at a time. -/

namespace XrayBridge

open Platform Recency XrayClientCache Paging

open Classical in
/-- There are no more things than there are holders, if each of these holds one at most. -/
theorem encard_held_le {A B : Type} {holds : A → B → Prop} {l : List A}
    (hone : ∀ a ∈ l, ∀ b b', holds a b → holds a b' → b = b') :
    {b | ∃ a ∈ l, holds a b}.encard ≤ l.countP fun a => ∃ b, holds a b := by
  induction l with
  | nil => simp
  | cons a l ih =>
    have hsplit : {b | ∃ a' ∈ a :: l, holds a' b} =
        {b | holds a b} ∪ {b | ∃ a' ∈ l, holds a' b} := by
      ext b
      simp
    have hrest := ih fun a' ha' => hone a' (List.mem_cons_of_mem a ha')
    have hfirst : {b | holds a b}.encard ≤ (if ∃ b, holds a b then 1 else 0 : Nat) := by
      split
      · exact Set.encard_le_one_iff.mpr fun b b' hb hb' => hone a List.mem_cons_self b b' hb hb'
      · rename_i hnone
        have hempty : {b | holds a b} = ∅ :=
          Set.eq_empty_of_forall_notMem fun b hb => hnone ⟨b, hb⟩
        rw [hempty, Set.encard_empty]
        exact zero_le
    rw [hsplit, List.countP_cons, Nat.add_comm, Nat.cast_add]
    refine (Set.encard_union_le _ _).trans (add_le_add ?_ hrest)
    simpa using hfirst

section

variable [Platform]

/-- The key for which a request gets a client from the cache, if it gets one. -/
def HttpRequest.key (request : HttpRequest) : Option Key :=
  match hasEndpoint request, nodeParams request.headers with
  | true, .ok params =>
    if (endpoint params.domain params.port).isOk then some params.call.key else none
  | _, _ => none

theorem key_of_ok {request : HttpRequest} {params : NodeParams} {uri : Uri}
    (hendpoint : hasEndpoint request = true) (hparams : nodeParams request.headers = .ok params)
    (huri : endpoint params.domain params.port = .ok uri) :
    request.key = some params.call.key := by
  rw [HttpRequest.key, hendpoint, hparams]
  exact if_pos (by rw [huri]; rfl)

theorem key_of_error {request : HttpRequest} {params : NodeParams} {e : AppError}
    (hparams : nodeParams request.headers = .ok params)
    (huri : endpoint params.domain params.port = .error e) : request.key = none := by
  rw [HttpRequest.key, hparams]
  cases hasEndpoint request with
  | false => rfl
  | true => exact if_neg (by rw [huri]; exact Bool.false_ne_true)

/-- The keys that a run has got clients for, the latest first. -/
def Server.wanted (s : Server) : List Key := (s.arrivals.filterMap fun a => a.request.key).reverse

theorem wanted_eq (s : Server) :
    s.wanted = ((s.arrivals.map (·.request)).filterMap HttpRequest.key).reverse := by
  rw [List.filterMap_map]
  rfl

theorem wanted_concat {s s' : Server} {a : Arrival} (h : s'.arrivals = s.arrivals ++ [a]) :
    s'.wanted = a.request.key.toList ++ s.wanted := by
  rw [Server.wanted, Server.wanted, h, List.filterMap_append, List.reverse_append,
    List.filterMap_cons]
  cases a.request.key <;> rfl

/-- The cache, accounted for by the keys that it has given clients for and by those that it has
built channels for, in the order of their serial numbers. -/
structure Accounted (n : ℕ+) (wanted built : List Key) (cache : XrayClientCache) : Prop where
  entries : keys cache.entries = recent n wanted
  capacity : cache.capacity = n
  connects : cache.connects = built.length
  length : built.length = misses n wanted
  owner : ∀ key client, (key, client) ∈ cache.entries → built[client.channel.serial]? = some key

theorem Accounted.failed {n : ℕ+} {wanted built : List Key} {cache cache' : XrayClientCache}
    {call : CacheCall} {e : AppError} (h : Accounted n wanted built cache)
    (hspec : CallSpec call cache (.error e) cache') : Accounted n wanted built cache' := by
  cases hspec with
  | failed missing refused entries capacity connects =>
    exact ⟨by rw [entries, h.entries], capacity.trans h.capacity, connects.trans h.connects,
      h.length, by rw [entries]; exact h.owner⟩

/-- A client is given on the channel of its key, which is built for it or has been built before. -/
theorem Accounted.given {n : ℕ+} {wanted built : List Key} {cache cache' : XrayClientCache}
    {call : CacheCall} {client : XrayClient} (h : Accounted n wanted built cache)
    (hspec : CallSpec call cache (.ok client) cache') :
    ∃ built', built <+: built' ∧ Accounted n (call.key :: wanted) built' cache' ∧
      built'[client.channel.serial]? = some call.key ∧
      ∀ (serial : Nat) key, built'[serial]? = some key → built[serial]? = some key ∨
        serial = cache.connects ∧ cache'.connects = serial + 1 ∧ key = call.key := by
  cases hspec with
  | hit found entries capacity connects =>
    have hmem := mem_keys_of_lookup found
    refine ⟨built, List.prefix_rfl, ⟨?_, capacity.trans h.capacity, connects.trans h.connects,
      ?_, ?_⟩, h.owner _ _ (mem_of_lookup found), fun _ _ => Or.inl⟩
    · rw [entries]
      exact keys_promote_recent h.entries hmem
    · rw [misses, if_pos (h.entries ▸ hmem), Nat.add_zero]
      exact h.length
    · intro key client hentry
      rw [entries] at hentry
      exact h.owner key client (mem_promote hentry)
  | built missing accepted entries capacity connects =>
    have hnot : call.key ∉ keys cache.entries := lookup_eq_none_iff.mp missing
    have hlast : (built ++ [call.key])[cache.connects]? = some call.key := by
      rw [h.connects, List.getElem?_concat_length]
    refine ⟨built ++ [call.key], List.prefix_append .., ⟨?_, capacity.trans h.capacity, ?_, ?_, ?_⟩,
      hlast, fun serial key hbuilt => ?_⟩
    · rw [entries, h.capacity]
      exact keys_insert_recent n.pos h.entries hnot
    · rw [connects, h.connects, List.length_append, List.length_singleton]
    · rw [misses, if_neg (h.entries ▸ hnot), List.length_append, List.length_singleton, h.length]
    · intro key client hentry
      rw [entries] at hentry
      rcases mem_insert hentry with heq | hentry
      · cases heq
        exact hlast
      · have howner := h.owner key client hentry
        rw [List.getElem?_append_left (List.getElem?_eq_some_iff.mp howner).1]
        exact howner
    · refine (getElem?_append_singleton hbuilt).imp_right fun hnew => ?_
      obtain ⟨hserial, hkey⟩ := hnew
      rw [← h.connects] at hserial
      exact ⟨hserial, by rw [connects, hserial], hkey⟩

/-- What the client of a request is, by its key. -/
def ClientOf (built : List Key) (request : HttpRequest) (cache : XrayClientCache) : Prop :=
  ∀ client, hasEndpoint request = true → (nodeContext request.headers cache).1 = .ok client →
    ∃ key, request.key = some key ∧ built[client.channel.serial]? = some key

theorem ClientOf.mono {built built' : List Key} {request : HttpRequest} {cache : XrayClientCache}
    (h : ClientOf built request cache) (hbuilt : built <+: built') :
    ClientOf built' request cache := by
  intro client hendpoint hclient
  obtain ⟨key, hkey, hserial⟩ := h client hendpoint hclient
  obtain ⟨later, rfl⟩ := hbuilt
  refine ⟨key, hkey, ?_⟩
  rw [List.getElem?_append_left (List.getElem?_eq_some_iff.mp hserial).1]
  exact hserial

/-- The channel with the number is built at the arrival of the request. -/
def Arrival.Builds (settings : Settings) (a : Arrival) (serial : Nat) : Prop :=
  a.cache.connects = serial ∧ (handle settings a.request a.cache).2.connects = serial + 1

theorem Accounted.handle (laws : LruLaws) {n : ℕ+} {wanted built : List Key}
    {cache : XrayClientCache} (h : Accounted n wanted built cache) (hcache : Reachable n cache)
    (settings : Settings) (request : HttpRequest) :
    ∃ built', built <+: built' ∧
      Accounted n (request.key.toList ++ wanted) built' (handle settings request cache).2 ∧
      ClientOf built' request cache ∧
      ∀ (serial : Nat) key, built'[serial]? = some key → built[serial]? = some key ∨
        Arrival.Builds settings ⟨request, cache⟩ serial ∧ request.key = some key := by
  have hcaches := handle_snd settings request cache
  cases hendpoint : hasEndpoint request with
  | false =>
    have hkey : request.key = none := by rw [HttpRequest.key, hendpoint]
    rw [hkey, hcaches, hendpoint, if_neg Bool.false_ne_true]
    refine ⟨built, List.prefix_rfl, h, fun client htrue => ?_, fun _ _ => Or.inl⟩
    rw [hendpoint] at htrue
    cases htrue
  | true =>
    rw [hendpoint, if_pos rfl] at hcaches
    cases hparams : nodeParams request.headers with
    | error e =>
      have hkey : request.key = none := by rw [HttpRequest.key, hendpoint, hparams]
      rw [hkey, hcaches, nodeContext_of_error hparams]
      refine ⟨built, List.prefix_rfl, h, fun client _ hclient => ?_, fun _ _ => Or.inl⟩
      rw [nodeContext_of_error hparams] at hclient
      cases hclient
    | ok params =>
      rcases hrun : nodeContext request.headers cache with ⟨result, cache'⟩
      have hspec := nodeContext_spec laws hparams hrun
      rw [hrun] at hcaches
      cases result with
      | error e =>
        rw [key_of_error hparams hspec.error_eq, hcaches]
        refine ⟨built, List.prefix_rfl, h.failed hspec, fun client _ hclient => ?_,
          fun _ _ => Or.inl⟩
        rw [hrun] at hclient
        cases hclient
      | ok client =>
        have huri := (hspec.client_eq (hcache.faithful laws)).2
        have hkey := key_of_ok hendpoint hparams huri
        obtain ⟨built', hbuilt, haccounted, hserial, hnew⟩ := h.given hspec
        rw [hkey, hcaches]
        refine ⟨built', hbuilt, haccounted, fun other _ hclient => ?_, fun serial key hmem => ?_⟩
        · rw [hrun] at hclient
          cases hclient
          exact ⟨_, hkey, hserial⟩
        · rcases hnew serial key hmem with hold | ⟨rfl, hconnects, rfl⟩
          · exact Or.inl hold
          · exact Or.inr ⟨⟨rfl, by rw [hcaches, hconnects]⟩, rfl⟩

/-! ### Runs -/

/-- The keys for which the channels have been built, in the order of their numbers. -/
structure Server.Channels (settings : Settings) (n : ℕ+) (s : Server) (built : List Key) : Prop
    where
  accounted : Accounted n s.wanted built s.cache
  clients : ∀ a ∈ s.arrivals, ClientOf built a.request a.cache
  builders : ∀ (serial : Nat) key, built[serial]? = some key →
    ∃ a ∈ s.arrivals, a.Builds settings serial ∧ a.request.key = some key

theorem Server.Run.channels (laws : LruLaws) {settings : Settings} {n : ℕ+} {s : Server}
    (h : Server.Run settings n s) : ∃ built, s.Channels settings n built := by
  induction h with
  | refl =>
    have hempty : (XrayClientCache.new n).entries = [] := laws.iter_new n
    refine ⟨[], ⟨?_, laws.cap_new n, rfl, rfl, ?_⟩, nofun, nofun⟩
    · rw [Server.start, hempty]
      simp [recent, Server.wanted]
    · intro key client hmem
      rw [Server.start, hempty] at hmem
      cases hmem
  | @tail s s' hrun hstep ih =>
    obtain ⟨built, haccounted, hclients, hbuilders⟩ := ih
    cases hstep with
    | act i e next answer htask => exact ⟨built, haccounted, hclients, hbuilders⟩
    | arrive request =>
      have hbefore : Server.Run settings n s := hrun
      obtain ⟨built', hbuilt, haccounted', hclient, hnew⟩ :=
        haccounted.handle laws hbefore.reachable settings request
      refine ⟨built', ?_, fun a ha => ?_, fun serial key hmem => ?_⟩
      · rw [wanted_concat rfl]
        exact haccounted'
      · rcases List.mem_append.mp ha with ha | ha
        · exact (hclients a ha).mono hbuilt
        · obtain rfl := List.mem_singleton.mp ha
          exact hclient
      · rcases hnew serial key hmem with hold | hbuilds
        · obtain ⟨a, ha, hbuilds⟩ := hbuilders serial key hold
          exact ⟨a, List.mem_append_left _ ha, hbuilds⟩
        · exact ⟨_, List.mem_append_right _ (List.mem_singleton_self _), hbuilds⟩

/-- Two calls go over one channel only if they are made for requests with the same domain, port and
token, which are also those of the request at whose arrival the channel was built. -/
theorem channel_of_one_key (laws : LruLaws) {settings : Settings} {n : ℕ+} {s : Server}
    (h : Server.Run settings n s) {i j : Nat} {r q : GrpcRequest} (hr : (i, r) ∈ s.sent)
    (hq : (j, q) ∈ s.sent) (hserial : r.channel.serial = q.channel.serial) :
    ∃ a b key, s.arrivals[i]? = some a ∧ s.arrivals[j]? = some b ∧ a.request.key = some key ∧
      b.request.key = some key ∧
      ∃ c ∈ s.arrivals, c.Builds settings r.channel.serial ∧ c.request.key = some key := by
  obtain ⟨built, -, hclients, hbuilders⟩ := h.channels laws
  have howner {i : Nat} {r : GrpcRequest} (hmem : (i, r) ∈ s.sent) :
      ∃ a key, s.arrivals[i]? = some a ∧ a.request.key = some key ∧
        built[r.channel.serial]? = some key := by
    obtain ⟨a, client, ha, haccepted, hchannel⟩ := h.invariant.sent i r hmem
    obtain ⟨key, hkey, howner⟩ := hclients a (List.mem_of_getElem? ha) client haccepted.endpoint
      haccepted.node
    exact ⟨a, key, ha, hkey, by rw [hchannel, howner]⟩
  obtain ⟨a, key, ha, hkey, hbuilt⟩ := howner hr
  obtain ⟨b, key', hb, hkey', hbuilt'⟩ := howner hq
  have hbuilder := hbuilders _ _ hbuilt
  rw [hserial, hbuilt'] at hbuilt
  cases hbuilt
  exact ⟨a, b, key, ha, hb, hkey, hkey', hbuilder⟩

/-- A larger cache has the clients of a smaller one, and builds no more channels, in any two runs in
which the same requests arrive. -/
theorem larger_cache_builds_less (laws : LruLaws) {settings settings' : Settings} {n m : ℕ+}
    {s s' : Server} (h : Server.Run settings n s) (h' : Server.Run settings' m s') (hnm : n ≤ m)
    (hsame : s.arrivals.map (·.request) = s'.arrivals.map (·.request)) :
    keys s.cache.entries ⊆ keys s'.cache.entries ∧ s'.cache.connects ≤ s.cache.connects := by
  obtain ⟨built, haccounted, -, -⟩ := h.channels laws
  obtain ⟨built', haccounted', -, -⟩ := h'.channels laws
  have hwanted : s.wanted = s'.wanted := by rw [wanted_eq, wanted_eq, hsame]
  rw [haccounted.entries, haccounted'.entries, haccounted.connects, haccounted'.connects,
    haccounted.length, haccounted'.length, hwanted]
  exact ⟨recent_subset hnm _, misses_antitone hnm _⟩

/-- A cache of capacity `n` builds at most `n / (n + 1 - m)` times the channels of any way to keep
`m` clients, the one used last among them, even if it knows the requests to come, and as many more
as it has more room.  Neither takes in a client that no request is for. -/
theorem channels_competitive (laws : LruLaws) {settings : Settings} {n : ℕ+} {s : Server}
    (h : Server.Run settings n s) {m : Nat} (hm : m ≤ n) {kept : Finset Key} {c : Nat}
    (hkeeps : Keeps m s.wanted kept c) :
    (n + 1 - m) * s.cache.connects ≤ n * (c + (n - m)) := by
  obtain ⟨built, haccounted, -, -⟩ := h.channels laws
  rw [haccounted.connects, haccounted.length]
  exact misses_competitive n.pos hm hkeeps

/-! ### Channels in use -/

/-- The task is still to make its call, or waits for the reply, and has the channel for it. -/
def Holds (task : Grpc Response) (channel : Channel) : Prop :=
  ∃ r, task.Asks (.rpc r) ∧ r.channel = channel

/-- The channels in use: those of the cached clients, and those of the tasks that wait. -/
def Server.inUse (s : Server) : Set Channel :=
  {channel | ∃ entry ∈ s.cache.entries, entry.2.channel = channel} ∪
    {channel | ∃ task ∈ s.tasks, Holds task channel}

open Classical in
noncomputable def Server.waiting (s : Server) : Nat :=
  s.tasks.countP fun task => ∃ channel, Holds task channel

theorem Server.Invariant.holds_unique {settings : Settings} {s : Server} (h : s.Invariant settings)
    {task : Grpc Response} (htask : task ∈ s.tasks) {a b : Channel} (ha : Holds task a)
    (hb : Holds task b) : a = b := by
  obtain ⟨i, hi, rfl⟩ := List.getElem_of_mem htask
  have hlength : i < s.arrivals.length := h.tasks ▸ hi
  have hwithin := h.remaining i _ _ (List.getElem?_eq_getElem hlength) (List.getElem?_eq_getElem hi)
  obtain ⟨r, hr, rfl⟩ := ha
  obtain ⟨q, hq, rfl⟩ := hb
  obtain ⟨client, haccepted, hchannel⟩ := hwithin.asks hr
  obtain ⟨client', haccepted', hchannel'⟩ := hwithin.asks hq
  have hclient : client = client' :=
    Except.ok.inj (haccepted.node.symm.trans haccepted'.node)
  rw [hchannel, hchannel', hclient]

/-- At any time, at most as many channels are in use as the cache has room for, and one more for
each request whose call has not come back: no channel is kept that is not needed. -/
theorem channels_in_use (laws : LruLaws) {settings : Settings} {n : ℕ+} {s : Server}
    (h : Server.Run settings n s) : s.inUse.encard ≤ (n : Nat) + s.waiting := by
  obtain ⟨built, haccounted, -, -⟩ := h.channels laws
  have hroom : s.cache.entries.length ≤ n := by
    rw [← length_keys, haccounted.entries]
    exact length_recent_le n _
  refine (Set.encard_union_le _ _).trans (add_le_add ?_ ?_)
  · have hone (entry : Key × XrayClient) (_ : entry ∈ s.cache.entries) (a b : Channel)
        (ha : entry.2.channel = a) (hb : entry.2.channel = b) : a = b := ha.symm.trans hb
    have hheld := encard_held_le hone
    exact hheld.trans (Nat.cast_le.mpr (List.countP_le_length.trans hroom))
  · exact encard_held_le fun task htask _ _ => h.invariant.holds_unique htask

end

open Reference

theorem key_sysRequest_a :
    (sysRequest "secret" "a.example").key = some ("a.example", 443, "t") := by
  rw [HttpRequest.key, hasEndpoint_sysRequest]
  rfl

theorem exists_client_of_serial {result : Except AppError XrayClient} {serial : Nat}
    (h : result.toOption.map (·.channel.serial) = some serial) :
    ∃ client, result = .ok client ∧ client.channel.serial = serial := by
  cases result with
  | error e => cases h
  | ok client => exact ⟨client, rfl, Option.some.inj h⟩

/-- A node is called, its client is evicted, and the node is called twice again. -/
theorem channel_of_one_key_again :
    ∃ s : Server, s.Run ⟨"secret", 8080⟩ 1 ∧ s.arrivals.map (·.request) =
        ["a.example", "b.example", "a.example", "a.example"].map (sysRequest "secret") ∧
      ∃ r q a b key, (2, r) ∈ s.sent ∧ (3, q) ∈ s.sent ∧ s.arrivals[2]? = some a ∧
        s.arrivals[3]? = some b ∧ a.request.key = some key ∧ b.request.key = some key ∧
        ∃ c ∈ s.arrivals, c.Builds ⟨"secret", 8080⟩ r.channel.serial ∧
          c.request.key = some key := by
  have hserial (domains : List String)
      (h : ((nodeContext (sysRequest "secret" "a.example").headers
        ((domains.map (sysRequest "secret")).foldl
          (fun cache request => (nodeContext request.headers cache).2) (.new 1))).1.toOption.map
            (·.channel.serial)) = some 2) {s : Server} (hrun : s.Run ⟨"secret", 8080⟩ 1)
      (harrivals : s.arrivals.map (·.request) = domains.map (sysRequest "secret")) :
      ∃ client, (nodeContext (sysRequest "secret" "a.example").headers s.cache).1 = .ok client ∧
        client.channel.serial = 2 := by
    refine exists_client_of_serial ?_
    rw [hrun.cache_eq, harrivals, serveAll_of_hasEndpoint]
    · exact h
    · simp [hasEndpoint_sysRequest]
  let reply : Except Status SysStatsResponse := .ok {}
  obtain ⟨s₂, hrun₂, harrivals₂, -⟩ := exists_sysCalls 1 ["a.example", "b.example"] (by decide)
  obtain ⟨client, hclient, hserial₂⟩ := hserial _ (by decide +kernel) hrun₂ harrivals₂
  obtain ⟨s₃, hrun₃, harrivals₃, hsent₃⟩ :=
    hrun₂.exists_arrival_call (r := client.request .getSysStats) reply (handle_sysRequest hclient)
  have harrivals₃ : s₃.arrivals.map (·.request) =
      ["a.example", "b.example", "a.example"].map (sysRequest "secret") := by
    rw [harrivals₃, List.map_append, harrivals₂]
    rfl
  obtain ⟨client', hclient', hserial₃⟩ := hserial _ (by decide +kernel) hrun₃ harrivals₃
  obtain ⟨s₄, hrun₄, harrivals₄, hsent₄⟩ :=
    hrun₃.exists_arrival_call (r := client'.request .getSysStats) reply (handle_sysRequest hclient')
  have hlength₂ : s₂.arrivals.length = 2 := Server.length_arrivals harrivals₂
  have hlength₃ : s₃.arrivals.length = 3 := Server.length_arrivals harrivals₃
  have hfirst : (2, client.request .getSysStats) ∈ s₄.sent := by
    simp [hsent₄, hsent₃, hlength₂]
  have hsecond : (3, client'.request .getSysStats) ∈ s₄.sent := by simp [hsent₄, hlength₃]
  obtain ⟨a, b, key, ha, hb, hkeys⟩ := channel_of_one_key lruLaws hrun₄ hfirst hsecond
    (hserial₂.trans hserial₃.symm)
  refine ⟨s₄, hrun₄, ?_, _, _, a, b, key, hfirst, hsecond, ha, hb, hkeys⟩
  rw [harrivals₄, List.map_append, harrivals₃]
  rfl

theorem larger_cache_builds_less_three :
    let requests := [sysRequest "secret" "a.example", sysRequest "secret" "b.example",
      sysRequest "secret" "a.example"]
    ∃ s s' : Server, s.Run ⟨"secret", 8080⟩ 1 ∧ s'.Run ⟨"secret", 8080⟩ 2 ∧
      s.arrivals.map (·.request) = requests ∧ s'.arrivals.map (·.request) = requests ∧
      s'.cache.connects ≤ s.cache.connects := by
  intro requests
  obtain ⟨s, hrun, harrivals⟩ := exists_arrivals ⟨"secret", 8080⟩ 1 requests
  obtain ⟨s', hrun', harrivals'⟩ := exists_arrivals ⟨"secret", 8080⟩ 2 requests
  have hless := larger_cache_builds_less lruLaws hrun hrun' (by decide)
    (harrivals.trans harrivals'.symm)
  exact ⟨s, s', hrun, hrun', harrivals, harrivals', hless.2⟩

/-- Two requests for one node against one client that is kept. -/
theorem channels_competitive_again :
    ∃ s : Server, s.Run ⟨"secret", 8080⟩ 1 ∧
      s.wanted = [("a.example", 443, "t"), ("a.example", 443, "t")] ∧ s.cache.connects ≤ 1 := by
  obtain ⟨s, hrun, harrivals⟩ := exists_arrivals ⟨"secret", 8080⟩ 1
    [sysRequest "secret" "a.example", sysRequest "secret" "a.example"]
  have hwanted : s.wanted = [("a.example", 443, "t"), ("a.example", 443, "t")] := by
    rw [wanted_eq, harrivals]
    simp only [List.filterMap_cons, key_sysRequest_a]
    rfl
  let key : Key := ("a.example", 443, "t")
  have hfirst : Keeps 1 [key] {key} 1 := .use key .nil (by simp) (by simp) (by simp)
  have hkeeps : Keeps 1 s.wanted {key} 1 := by
    rw [hwanted]
    exact hfirst.use key (by simp) (by simp) (by simp)
  have hbound := channels_competitive lruLaws hrun le_rfl hkeeps
  have hone : ((1 : ℕ+) : Nat) = 1 := rfl
  rw [hone] at hbound
  exact ⟨s, hrun, hwanted, by omega⟩

/-- One cached client, and a request for another node that waits. -/
theorem channels_in_use_waiting :
    ∃ s : Server, s.Run ⟨"secret", 8080⟩ 1 ∧ s.arrivals.length = 2 ∧
      s.inUse.encard ≤ (1 : Nat) + s.waiting := by
  obtain ⟨s, hrun, harrivals⟩ := exists_arrivals ⟨"secret", 8080⟩ 1
    [sysRequest "secret" "a.example", sysRequest "secret" "b.example"]
  exact ⟨s, hrun, Server.length_arrivals harrivals, channels_in_use lruLaws hrun⟩

end XrayBridge
