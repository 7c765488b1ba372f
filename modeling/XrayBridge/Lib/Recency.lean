import Mathlib.Data.List.Nodup
import Mathlib.Data.List.Basic
import Mathlib.Order.Basic
import Mathlib.Data.Nat.Init

/-! Lists of keyed values in the order of their last use, the most recent first, and how the keys
of such a list follow from the history of uses.  `recent n h` is the history's account: the first
`n` distinct keys of `h`, which has its latest use first. -/

namespace Recency

variable {K V : Type}

def keys (l : List (K × V)) : List K := l.map Prod.fst

@[simp] theorem keys_nil : keys ([] : List (K × V)) = [] := rfl

@[simp] theorem keys_cons (e : K × V) (l : List (K × V)) : keys (e :: l) = e.1 :: keys l := rfl

@[simp] theorem length_keys (l : List (K × V)) : (keys l).length = l.length := List.length_map _

theorem keys_dropLast (l : List (K × V)) : keys l.dropLast = (keys l).dropLast := by
  simp [keys, List.map_dropLast]

theorem keys_map {K' V' : Type} (f : K → K') (g : V → V') (l : List (K × V)) :
    keys (l.map (Prod.map f g)) = (keys l).map f := by
  simp [keys]

variable [DecidableEq K]

def lookup (k : K) (l : List (K × V)) : Option V := (l.find? (·.1 = k)).map Prod.snd

/-- The list after a use of `k`: its entry comes first, and the others keep their order. -/
def promote (k : K) (l : List (K × V)) : List (K × V) :=
  match l.find? (·.1 = k) with
  | some e => e :: l.filter (·.1 ≠ k)
  | none => l

/-- The list after `v` is stored under `k`.  A new key in a list of `n` entries takes the place of
the last one. -/
def insert (n : Nat) (k : K) (v : V) (l : List (K × V)) : List (K × V) :=
  if k ∈ keys l then (k, v) :: l.filter (·.1 ≠ k)
  else if l.length < n then (k, v) :: l
  else (k, v) :: l.dropLast

theorem keys_filter_ne (k : K) (l : List (K × V)) :
    keys (l.filter (·.1 ≠ k)) = (keys l).filter (· ≠ k) := by
  simp only [keys, List.filter_map]
  rfl

theorem find?_isSome_iff {k : K} {l : List (K × V)} :
    (l.find? (·.1 = k)).isSome ↔ k ∈ keys l := by
  simp [keys, List.find?_isSome]

theorem lookup_isSome_iff {k : K} {l : List (K × V)} : (lookup k l).isSome ↔ k ∈ keys l := by
  rw [lookup, Option.isSome_map, find?_isSome_iff]

theorem lookup_eq_none_iff {k : K} {l : List (K × V)} : lookup k l = none ↔ k ∉ keys l := by
  rw [← lookup_isSome_iff, Option.not_isSome_iff_eq_none]

theorem mem_of_lookup {k : K} {v : V} {l : List (K × V)} (h : lookup k l = some v) :
    (k, v) ∈ l := by
  obtain ⟨e, he, rfl⟩ := Option.map_eq_some_iff.mp h
  have hk : e.1 = k := by simpa using List.find?_some he
  rw [← hk]
  exact List.mem_of_find?_eq_some he

theorem mem_keys_of_lookup {k : K} {v : V} {l : List (K × V)} (h : lookup k l = some v) :
    k ∈ keys l :=
  lookup_isSome_iff.mp (by rw [h]; rfl)

@[simp] theorem lookup_cons_self (k : K) (v : V) (l : List (K × V)) :
    lookup k ((k, v) :: l) = some v := by
  simp [lookup]

/-! ### What a use does to the entries -/

theorem promote_of_mem {k : K} {v : V} {l : List (K × V)} (h : lookup k l = some v) :
    promote k l = (k, v) :: l.filter (·.1 ≠ k) := by
  obtain ⟨e, he, rfl⟩ := Option.map_eq_some_iff.mp h
  have hk : e.1 = k := by simpa using List.find?_some he
  rw [promote, he, ← hk]

theorem promote_of_notMem {k : K} {l : List (K × V)} (h : k ∉ keys l) : promote k l = l := by
  have hn : l.find? (·.1 = k) = none := by
    rw [← Option.not_isSome_iff_eq_none, find?_isSome_iff]
    exact h
  simp [promote, hn]

theorem insert_of_notMem {n : Nat} {k : K} {v : V} {l : List (K × V)} (h : k ∉ keys l) :
    insert n k v l = (k, v) :: if l.length < n then l else l.dropLast := by
  rw [insert, if_neg h]
  split <;> rfl

theorem mem_promote {k : K} {e : K × V} {l : List (K × V)} (h : e ∈ promote k l) : e ∈ l := by
  by_cases hk : k ∈ keys l
  · obtain ⟨v, hv⟩ := Option.isSome_iff_exists.mp (lookup_isSome_iff.mpr hk)
    rw [promote_of_mem hv] at h
    rcases List.mem_cons.mp h with rfl | h
    · exact mem_of_lookup hv
    · exact (List.mem_filter.mp h).1
  · rwa [promote_of_notMem hk] at h

theorem mem_insert {n : Nat} {k : K} {v : V} {e : K × V} {l : List (K × V)}
    (h : e ∈ insert n k v l) : e = (k, v) ∨ e ∈ l := by
  unfold insert at h
  split at h
  · exact (List.mem_cons.mp h).imp_right fun h => (List.mem_filter.mp h).1
  · split at h
    · exact List.mem_cons.mp h
    · exact (List.mem_cons.mp h).imp_right fun h => (List.dropLast_sublist l).subset h

theorem mem_insert_of_notMem {n : Nat} {k j : K} {v w : V} {l : List (K × V)} (hk : k ∉ keys l)
    (h : (j, w) ∈ insert n k v l) : (j = k ∧ w = v) ∨ (j ≠ k ∧ (j, w) ∈ l) := by
  rcases mem_insert h with heq | hmem
  · cases heq
    exact Or.inl ⟨rfl, rfl⟩
  · refine Or.inr ⟨?_, hmem⟩
    rintro rfl
    exact hk (List.mem_map_of_mem (f := Prod.fst) hmem)

/-! ### Histories -/

theorem eraseDups_filter (p : K → Bool) (l : List K) :
    (l.filter p).eraseDups = l.eraseDups.filter p := by
  induction h : l.length using Nat.strong_induction_on generalizing l with
  | _ n ih =>
    subst h
    cases l with
    | nil => rfl
    | cons a l =>
      have hlt : (l.filter fun b => !b == a).length < (a :: l).length :=
        Nat.lt_succ_of_le (List.length_filter_le _ _)
      have ih := ih _ hlt (l.filter fun b => !b == a) rfl
      rw [List.eraseDups_cons, List.filter_cons, List.filter_cons]
      split
      · rw [List.eraseDups_cons, ← ih, List.filter_comm]
      · rename_i ha
        rw [← ih, List.filter_filter]
        congr 1
        apply List.filter_congr
        intro b _
        by_cases hb : b = a
        · subst hb
          simp [ha]
        · simp [hb]

theorem eraseDups_cons_filter (k : K) (h : List K) :
    (k :: h).eraseDups = k :: h.eraseDups.filter (· ≠ k) := by
  rw [List.eraseDups_cons, eraseDups_filter]
  congr 2
  funext b
  by_cases hb : b = k <;> simp [hb]

theorem nodup_eraseDups (h : List K) : h.eraseDups.Nodup := by
  induction h with
  | nil => simp
  | cons k h ih =>
    rw [eraseDups_cons_filter, List.nodup_cons]
    exact ⟨by simp, ih.filter _⟩

/-- The first `n` distinct keys of a history with its latest use first. -/
def recent (n : Nat) (h : List K) : List K := h.eraseDups.take n

theorem filter_ne_of_notMem {k : K} {l : List K} (h : k ∉ l) : l.filter (· ≠ k) = l :=
  List.filter_eq_self.mpr fun j hj => by
    have : j ≠ k := fun e => h (e ▸ hj)
    simpa using this

theorem filter_ne_cons {k a : K} {l : List K} (h : a ≠ k) :
    (a :: l).filter (· ≠ k) = a :: l.filter (· ≠ k) :=
  List.filter_cons_of_pos (by simpa using h)

/-- Without an element among its first `m + 1`, a list without duplicates starts with the `m` other
ones. -/
theorem take_filter_ne_of_mem {k : K} {m : Nat} {l : List K} (hl : l.Nodup)
    (hk : k ∈ l.take (m + 1)) : (l.filter (· ≠ k)).take m = (l.take (m + 1)).filter (· ≠ k) := by
  induction l generalizing m with
  | nil => simp at hk
  | cons a l ih =>
    obtain ⟨ha, hl⟩ := List.nodup_cons.mp hl
    rw [List.take_succ_cons] at hk ⊢
    by_cases hak : a = k
    · subst hak
      rw [List.filter_cons_of_neg (by simp), List.filter_cons_of_neg (by simp),
        filter_ne_of_notMem ha, filter_ne_of_notMem fun h => ha (List.mem_of_mem_take h)]
    · have hk : k ∈ l.take m := (List.mem_cons.mp hk).resolve_left (Ne.symm hak)
      rw [filter_ne_cons hak, filter_ne_cons hak]
      cases m with
      | zero => simp at hk
      | succ m => rw [List.take_succ_cons, ih hl hk]

theorem take_filter_ne_of_notMem {k : K} {m : Nat} {l : List K} (hk : k ∉ l.take m) :
    (l.filter (· ≠ k)).take m = l.take m := by
  induction l generalizing m with
  | nil => rfl
  | cons a l ih =>
    cases m with
    | zero => simp
    | succ m =>
      rw [List.take_succ_cons, List.mem_cons, not_or] at hk
      rw [filter_ne_cons (Ne.symm hk.1), List.take_succ_cons, List.take_succ_cons, ih hk.2]

/-- A use of a recent key moves it to the front. -/
theorem recent_cons_of_mem {n : Nat} {k : K} {h : List K} (hk : k ∈ recent n h) :
    recent n (k :: h) = k :: (recent n h).filter (· ≠ k) := by
  cases n with
  | zero => simp [recent] at hk
  | succ m =>
    rw [recent, eraseDups_cons_filter, List.take_succ_cons,
      take_filter_ne_of_mem (nodup_eraseDups h) hk]
    rfl

/-- A use of another key puts it in front, and the last of `n` recent keys drops out. -/
theorem recent_cons_of_notMem {n : Nat} {k : K} {h : List K} (hn : 0 < n)
    (hk : k ∉ recent n h) :
    recent n (k :: h) =
      k :: if (recent n h).length < n then recent n h else (recent n h).dropLast := by
  obtain ⟨m, rfl⟩ : ∃ m, n = m + 1 := ⟨n - 1, by omega⟩
  have hstart : h.eraseDups.take m <+: recent (m + 1) h :=
    List.take_prefix_take_left (Nat.le_succ m)
  rw [recent, eraseDups_cons_filter, List.take_succ_cons,
    take_filter_ne_of_notMem fun h => hk (hstart.subset h)]
  congr 1
  split
  · rename_i hlen
    rw [recent, List.length_take] at hlen
    rw [recent, List.take_of_length_le (by omega), List.take_of_length_le (by omega)]
  · rename_i hlen
    rw [recent, List.length_take] at hlen
    rw [recent, List.dropLast_eq_take, List.length_take, List.take_take]
    congr 1
    omega

/-- How many distinct keys were used after the last use of `k`. -/
def usedSince (k : K) (h : List K) : Nat := (h.takeWhile (· ≠ k)).eraseDups.length

/-- A key is recent when it was used and fewer than `n` distinct others were used after it. -/
theorem mem_recent_iff {n : Nat} {k : K} {h : List K} :
    k ∈ recent n h ↔ k ∈ h ∧ usedSince k h < n := by
  unfold usedSince
  by_cases hk : k ∈ h
  · obtain ⟨pre, post, rfl, hpre⟩ : ∃ pre post, h = pre ++ k :: post ∧ k ∉ pre := by
      obtain ⟨pre, post, h1, h2⟩ := List.eq_append_cons_of_mem hk
      exact ⟨pre, post, h1, h2⟩
    have htake : (pre ++ k :: post).takeWhile (· ≠ k) = pre := by
      rw [List.takeWhile_append_of_pos (fun j hj => by
        have : j ≠ k := fun e => hpre (e ▸ hj)
        simpa using this)]
      simp
    have hdups : (pre ++ k :: post).eraseDups =
        pre.eraseDups ++ k :: (post.removeAll (pre ++ [k])).eraseDups := by
      rw [show pre ++ k :: post = pre ++ [k] ++ post by simp, List.eraseDups_append,
        List.eraseDups_append, List.append_assoc]
      congr 1
      have : [k].removeAll pre = [k] := by simp [List.removeAll, hpre]
      rw [this]
      rfl
    rw [htake, recent, hdups]
    have hpre' : k ∉ pre.eraseDups := by simpa using hpre
    simp only [hk, true_and]
    constructor
    · intro hm
      by_contra hge
      rw [List.take_append_of_le_length (by omega)] at hm
      exact hpre' (List.mem_of_mem_take hm)
    · intro hlt
      rw [List.take_append]
      obtain ⟨m, hm⟩ : ∃ m, n - pre.eraseDups.length = m + 1 := ⟨n - pre.eraseDups.length - 1,
        by omega⟩
      rw [hm, List.take_succ_cons]
      simp
  · simp only [hk, false_and, iff_false]
    intro hm
    exact hk (by simpa [recent] using List.mem_of_mem_take hm)

/-! ### The two accounts agree -/

theorem keys_promote {k : K} {l : List (K × V)} (h : k ∈ keys l) :
    keys (promote k l) = k :: (keys l).filter (· ≠ k) := by
  obtain ⟨v, hv⟩ := Option.isSome_iff_exists.mp (lookup_isSome_iff.mpr h)
  rw [promote_of_mem hv, keys_cons, keys_filter_ne]

theorem mem_keys_promote {j k : K} {l : List (K × V)} : j ∈ keys (promote k l) ↔ j ∈ keys l := by
  by_cases hk : k ∈ keys l
  · rw [keys_promote hk, List.mem_cons, List.mem_filter, decide_eq_true_eq]
    constructor
    · rintro (rfl | ⟨hj, -⟩)
      · exact hk
      · exact hj
    · intro hj
      by_cases hjk : j = k
      · exact Or.inl hjk
      · exact Or.inr ⟨hj, hjk⟩
  · rw [promote_of_notMem hk]

theorem keys_insert {n : Nat} {k : K} {v : V} {l : List (K × V)} (h : k ∉ keys l) :
    keys (insert n k v l) = k :: if (keys l).length < n then keys l else (keys l).dropLast := by
  rw [insert_of_notMem h, keys_cons, length_keys]
  split
  · rfl
  · rw [keys_dropLast]

/-- A list that holds the recent keys of a history holds them after a use of one of them. -/
theorem keys_promote_recent {n : Nat} {k : K} {h : List K} {l : List (K × V)}
    (hl : keys l = recent n h) (hk : k ∈ keys l) : keys (promote k l) = recent n (k :: h) := by
  rw [keys_promote hk, hl, recent_cons_of_mem (hl ▸ hk)]

theorem keys_insert_recent {n : Nat} {k : K} {v : V} {h : List K} {l : List (K × V)} (hn : 0 < n)
    (hl : keys l = recent n h) (hk : k ∉ keys l) :
    keys (insert n k v l) = recent n (k :: h) := by
  rw [keys_insert hk, hl, recent_cons_of_notMem hn (hl ▸ hk)]

/-! ### Other names for the keys -/

section Renamed

variable {K' V' : Type} [DecidableEq K'] {f : K → K'}

theorem find?_map (hf : f.Injective) (g : V → V') (k : K) (l : List (K × V)) :
    (l.map (Prod.map f g)).find? (·.1 = f k) = (l.find? (·.1 = k)).map (Prod.map f g) := by
  rw [List.find?_map]
  congr 1
  congr 1
  funext e
  simp [hf.eq_iff]

theorem lookup_map (hf : f.Injective) (g : V → V') (k : K) (l : List (K × V)) :
    lookup (f k) (l.map (Prod.map f g)) = (lookup k l).map g := by
  rw [lookup, find?_map hf, lookup, Option.map_map, Option.map_map]
  rfl

theorem filter_ne_map (hf : f.Injective) (g : V → V') (k : K) (l : List (K × V)) :
    (l.map (Prod.map f g)).filter (·.1 ≠ f k) = (l.filter (·.1 ≠ k)).map (Prod.map f g) := by
  rw [List.filter_map]
  congr 1
  refine List.filter_congr fun e _ => ?_
  simp [hf.eq_iff]

theorem promote_map (hf : f.Injective) (g : V → V') (k : K) (l : List (K × V)) :
    promote (f k) (l.map (Prod.map f g)) = (promote k l).map (Prod.map f g) := by
  rw [promote, find?_map hf, promote]
  cases l.find? (·.1 = k) with
  | none => rfl
  | some e =>
    dsimp only [Option.map_some]
    rw [filter_ne_map hf]
    rfl

theorem insert_map (hf : f.Injective) (g : V → V') (n : Nat) (k : K) (v : V) (l : List (K × V)) :
    insert n (f k) (g v) (l.map (Prod.map f g)) = (insert n k v l).map (Prod.map f g) := by
  have hmem : f k ∈ keys (l.map (Prod.map f g)) ↔ k ∈ keys l := by
    rw [keys_map, List.mem_map_of_injective hf]
  rw [insert, insert, filter_ne_map hf, List.length_map]
  by_cases hk : k ∈ keys l
  · rw [if_pos hk, if_pos (hmem.mpr hk)]
    rfl
  · rw [if_neg hk, if_neg fun h => hk (hmem.mp h)]
    split
    · rfl
    · rw [← List.map_dropLast]
      rfl

end Renamed

end Recency
