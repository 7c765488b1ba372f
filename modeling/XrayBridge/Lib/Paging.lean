import Mathlib.Data.Finset.Card
import XrayBridge.Lib.Recency

/-! Caches of keys under histories of uses, which have their latest use first.  To keep the keys
that were used last has fewer misses the more keys are kept, and not many more than any other way to
keep fewer keys, the one used last among them, even one that knows the uses to come. -/

namespace Paging

open Recency hiding insert

variable {K : Type} [DecidableEq K]

/-- How many uses have not found their key among the `n` recent ones. -/
def misses (n : Nat) : List K → Nat
  | [] => 0
  | k :: h => misses n h + if k ∈ recent n h then 0 else 1

theorem recent_subset {n m : Nat} (hnm : n ≤ m) (h : List K) : recent n h ⊆ recent m h :=
  (List.take_prefix_take_left hnm).subset

/-- What a cache has, a larger one has. -/
theorem misses_antitone {n m : Nat} (hnm : n ≤ m) (h : List K) : misses m h ≤ misses n h := by
  induction h with
  | nil => exact le_rfl
  | cons k h ih =>
    refine Nat.add_le_add ih ?_
    split
    · exact Nat.zero_le _
    · rename_i hk
      rw [if_neg fun hmem => hk (recent_subset hnm h hmem)]

/-- A way to keep at most `m` keys, the one used last among them, where a key comes in only by its
use: what is kept after a history, and how many uses have not found their key. -/
inductive Keeps (m : Nat) : List K → Finset K → Nat → Prop where
  | nil : Keeps m [] ∅ 0
  | use {h : List K} {kept kept' : Finset K} {c : Nat} (k : K) (before : Keeps m h kept c)
      (used : k ∈ kept') (others : kept' ⊆ insert k kept) (small : kept'.card ≤ m) :
      Keeps m (k :: h) kept' (c + if k ∈ kept then 0 else 1)

/-! ### Ranks -/

/-- The ranks in a list of the keys that are not kept: `n` for the first, and less by one for each
next. -/
def ranks (kept : Finset K) : Nat → List K → Nat
  | _, [] => 0
  | n, k :: l => (if k ∈ kept then 0 else n) + ranks kept (n - 1) l

theorem ranks_le_of_le (kept : Finset K) {n m : Nat} (hnm : n ≤ m) (l : List K) :
    ranks kept n l ≤ ranks kept m l := by
  induction l generalizing n m with
  | nil => exact le_rfl
  | cons k l ih =>
    have hrest := ih (Nat.sub_le_sub_right hnm 1)
    simp only [ranks]
    split <;> omega

theorem ranks_antitone {kept kept' : Finset K} (hsub : kept ⊆ kept') (n : Nat) (l : List K) :
    ranks kept' n l ≤ ranks kept n l := by
  induction l generalizing n with
  | nil => exact le_rfl
  | cons k l ih =>
    have hrest := ih (n - 1)
    simp only [ranks]
    by_cases hk : k ∈ kept
    · rw [if_pos hk, if_pos (hsub hk)]
      omega
    · rw [if_neg hk]
      split <;> omega

/-- A key that is given up has at most the first rank. -/
theorem ranks_le_filter (kept kept' : Finset K) (n : Nat) (l : List K) :
    ranks kept' n l ≤ ranks kept n l + n * (l.filter (· ∈ kept \ kept')).length := by
  induction l generalizing n with
  | nil => exact Nat.zero_le _
  | cons k l ih =>
    have hrest := ih (n - 1)
    have hless : (n - 1) * (l.filter (· ∈ kept \ kept')).length ≤
        n * (l.filter (· ∈ kept \ kept')).length := Nat.mul_le_mul_right _ (Nat.sub_le n 1)
    simp only [ranks]
    by_cases hk : k ∈ kept'
    · rw [if_pos hk, List.filter_cons_of_neg (by simp [hk])]
      omega
    · rw [if_neg hk]
      by_cases hk' : k ∈ kept
      · rw [if_pos hk', List.filter_cons_of_pos (by simp [hk, hk']), List.length_cons,
          Nat.mul_succ]
        omega
      · rw [if_neg hk', List.filter_cons_of_neg (by simp [hk'])]
        omega

theorem ranks_le_sdiff (kept kept' : Finset K) (n : Nat) {l : List K} (hl : l.Nodup) :
    ranks kept' n l ≤ ranks kept n l + n * (kept \ kept').card := by
  have hcard : (l.filter (· ∈ kept \ kept')).length ≤ (kept \ kept').card := by
    rw [← List.toFinset_card_of_nodup (hl.filter _)]
    refine Finset.card_le_card fun k hk => ?_
    rw [List.mem_toFinset, List.mem_filter] at hk
    exact of_decide_eq_true hk.2
  exact (ranks_le_filter kept kept' n l).trans
    (Nat.add_le_add_left (Nat.mul_le_mul_left n hcard) _)

/-- Where one key goes to the front, those before it move back by one. -/
theorem ranks_filter_ne (kept : Finset K) {k : K} (n : Nat) {l : List K} (hl : l.Nodup)
    (hk : k ∈ l) : ranks kept (n - 1) (l.filter (· ≠ k)) ≤ ranks kept n l := by
  induction l generalizing n with
  | nil => cases hk
  | cons a l ih =>
    obtain ⟨ha, hl⟩ := List.nodup_cons.mp hl
    by_cases hak : a = k
    · subst hak
      rw [List.filter_cons_of_neg (by simp), filter_ne_of_notMem ha]
      exact Nat.le_add_left ..
    · have hrest := ih (n - 1) hl ((List.mem_cons.mp hk).resolve_left (Ne.symm hak))
      rw [filter_ne_cons hak]
      simp only [ranks]
      split <;> omega

/-- Where the last of `n` keys drops out, each of those that are not kept moves back by one. -/
theorem ranks_dropLast (kept : Finset K) {n : Nat} {l : List K} (hl : l.length ≤ n) :
    ranks kept (n - 1) l.dropLast + (l.filter (· ∉ kept)).length ≤ ranks kept n l := by
  induction l generalizing n with
  | nil => exact le_rfl
  | cons a l ih =>
    rw [List.length_cons] at hl
    have hlength : ((a :: l).filter (· ∉ kept)).length =
        (if a ∈ kept then 0 else 1) + (l.filter (· ∉ kept)).length := by
      by_cases ha : a ∈ kept
      · rw [List.filter_cons_of_neg (by simpa using ha), if_pos ha, Nat.zero_add]
      · rw [List.filter_cons_of_pos (by simpa using ha), if_neg ha, List.length_cons,
          Nat.add_comm]
    rw [hlength]
    cases l with
    | nil =>
      simp only [List.dropLast_singleton, ranks, List.filter_nil, List.length_nil]
      split <;> omega
    | cons b l =>
      have hrest := ih (n := n - 1) (by omega)
      rw [List.dropLast_cons_of_ne_nil (List.cons_ne_nil b l)]
      simp only [ranks] at hrest ⊢
      split <;> omega

/-! ### One use -/

theorem nodup_recent (n : Nat) (h : List K) : (recent n h).Nodup :=
  (List.take_prefix n _).sublist.nodup (nodup_eraseDups h)

theorem length_recent_le (n : Nat) (h : List K) : (recent n h).length ≤ n :=
  List.length_take_le ..

/-- Where the recent keys are full and miss a key that is kept, at most `m - 1` of them are kept. -/
theorem length_notKept {kept : Finset K} {n m : Nat} {k : K} {l : List K} (hl : l.Nodup)
    (hfull : n ≤ l.length) (hk : k ∉ l) (used : k ∈ kept) (small : kept.card ≤ m) :
    n + 1 - m ≤ (l.filter (· ∉ kept)).length := by
  have hkept : (l.filter (· ∈ kept)).length ≤ (kept.erase k).card := by
    rw [← List.toFinset_card_of_nodup (hl.filter _)]
    refine Finset.card_le_card fun a ha => ?_
    rw [List.mem_toFinset, List.mem_filter] at ha
    refine Finset.mem_erase.mpr ⟨?_, of_decide_eq_true ha.2⟩
    rintro rfl
    exact hk ha.1
  have hsplit := List.length_eq_length_filter_add (l := l) fun a => decide (a ∈ kept)
  rw [Finset.card_erase_of_mem used] at hkept
  have hnot : (l.filter fun a => !decide (a ∈ kept)) = l.filter (· ∉ kept) :=
    List.filter_congr fun a _ => (decide_not ..).symm
  rw [hnot] at hsplit
  have hpos := Finset.card_pos.mpr ⟨k, used⟩
  omega

theorem length_filter_ne {k : K} {l : List K} (hl : l.Nodup) (hk : k ∈ l) :
    (l.filter (· ≠ k)).length + 1 = l.length := by
  have herase : l.filter (· ≠ k) = l.erase k := by
    rw [hl.erase_eq_filter]
    exact List.filter_congr fun a _ => by simp [bne, beq_eq_decide]
  have hpos := List.length_pos_of_mem hk
  rw [herase, List.length_erase_of_mem hk]
  omega

/-- A use of a key that is kept: the ranks pay for a miss, unless there is one recent key more. -/
theorem ranks_use {kept : Finset K} {n m : Nat} (hn : 0 < n) {k : K} (h : List K) (used : k ∈ kept)
    (small : kept.card ≤ m) :
    (n + 1 - m) * (if k ∈ recent n h then 0 else 1) + ranks kept n (recent n (k :: h)) +
        (n + 1 - m) * (recent n h).length ≤
      ranks kept n (recent n h) + (n + 1 - m) * (recent n (k :: h)).length := by
  have hfront (l : List K) : ranks kept n (k :: l) = ranks kept (n - 1) l := by
    rw [ranks, if_pos used, Nat.zero_add]
  by_cases hk : k ∈ recent n h
  · have hranks := ranks_filter_ne kept n (nodup_recent n h) hk
    rw [if_pos hk, recent_cons_of_mem hk, hfront, List.length_cons,
      length_filter_ne (nodup_recent n h) hk]
    omega
  · rw [if_neg hk, recent_cons_of_notMem hn hk, hfront, Nat.mul_one]
    split
    · have hranks := ranks_le_of_le kept (Nat.sub_le n 1) (recent n h)
      rw [List.length_cons, Nat.mul_succ]
      omega
    · rename_i hfull
      have hranks := ranks_dropLast kept (length_recent_le n h)
      have hnot := length_notKept (nodup_recent n h) (Nat.le_of_not_lt hfull) hk used small
      have hlength : (k :: (recent n h).dropLast).length = (recent n h).length := by
        rw [List.length_cons, List.length_dropLast]
        omega
      rw [hlength]
      omega

/-- The ranks, the misses of the recent keys and those of the others stay in balance. -/
theorem Keeps.balance {n m : Nat} (hn : 0 < n) {h : List K} {kept : Finset K} {c : Nat}
    (hkeeps : Keeps m h kept c) :
    (n + 1 - m) * misses n h + ranks kept n (recent n h) + n * kept.card ≤
      n * c + (n + 1 - m) * (recent n h).length := by
  induction hkeeps with
  | nil => simp [misses, recent, ranks]
  | @use h kept kept' c k before used others small ih =>
    have huse := ranks_use hn h used small
    have hgiven := ranks_le_sdiff (Insert.insert k kept) kept' n (nodup_recent n h)
    have hmore := ranks_antitone (Finset.subset_insert k kept) n (recent n h)
    have hcard : (Insert.insert k kept \ kept').card + kept'.card =
        kept.card + if k ∈ kept then 0 else 1 := by
      rw [Finset.card_sdiff_add_card_eq_card others]
      split
      · rename_i hk
        rw [Finset.insert_eq_of_mem hk, Nat.add_zero]
      · rename_i hk
        exact Finset.card_insert_of_notMem hk
    have hscaled := congrArg (n * ·) hcard
    simp only [Nat.mul_add] at hscaled
    rw [misses, Nat.mul_add, Nat.mul_add]
    omega

/-- To keep the `n` keys that were used last has at most `n / (n + 1 - m)` times the misses of any
way to keep `m` keys, the one used last among them, and as many misses more as there is more
room. -/
theorem misses_competitive {n m : Nat} (hn : 0 < n) (hnm : m ≤ n) {h : List K} {kept : Finset K}
    {c : Nat} (hkeeps : Keeps m h kept c) :
    (n + 1 - m) * misses n h ≤ n * (c + (n - m)) := by
  have hbalance := hkeeps.balance hn
  have hfull := Nat.mul_le_mul_left (n + 1 - m) (length_recent_le n h)
  cases hkeeps with
  | nil => simp [misses]
  | use k before used others small =>
    have hpos := Nat.mul_le_mul_left n (Finset.card_pos.mpr ⟨k, used⟩)
    have hroom : (n + 1 - m) * n = n * (n - m) + n := by
      rw [Nat.sub_add_comm hnm, Nat.mul_comm, Nat.mul_succ]
    rw [Nat.mul_add]
    omega

end Paging
