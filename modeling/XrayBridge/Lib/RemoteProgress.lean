import Mathlib.Algebra.Order.BigOperators.Group.Finset
import Mathlib.Logic.Relation
import XrayBridge.Lib.RemoteCalls

/-! The tasks of a system come to their ends: each takes a bounded number of steps, and no task
waits for another. -/

namespace RemoteCalls

variable {E : Type} {R : E → Type} {α ι : Type} {obj : Object E R} {link : Link E R}

/-! ### Bounds -/

/-- How many steps of its own a call can still take. -/
def Wire.left : Wire E R → Nat
  | .idle => 3
  | .calling _ => 2
  | .replying _ _ => 1
  | .closed => 0

/-- The task has at most `b` steps left: one for each question, and those of its call. -/
def Task.Left (t : Task ι E R α) (b : Nat) : Prop :=
  ∃ k, t.rest.Within (fun _ => True) (fun _ => 1) k ∧ k + t.wire.left ≤ b

theorem Wire.left_pos {wire : Wire E R} (h : wire.Busy) : 0 < wire.left := by
  cases wire with
  | idle | closed => exact h.elim
  | calling | replying => simp [Wire.left]

/-- A question is answered. -/
theorem Task.Left.next {t : Task ι E R α} {b : Nat} {e : E} {next : R e → Dialogue E R α}
    (h : t.Left b) (rest : t.rest = .ask e next) (r : R e) (failed : Bool) :
    0 < b ∧ Task.Left { t with rest := next r, failed } (b - 1) := by
  obtain ⟨k, hk, hb⟩ := h
  rw [rest] at hk
  obtain ⟨-, hone, hnext⟩ := hk
  have hone : 1 ≤ k := hone
  refine ⟨by omega, k - 1, hnext r, ?_⟩
  show k - 1 + t.wire.left ≤ b - 1
  omega

theorem Task.Left.wire {t : Task ι E R α} {b : Nat} (h : t.Left b) (wire : Wire E R)
    (hwire : wire.left < t.wire.left) : 0 < b ∧ Task.Left { t with wire } (b - 1) := by
  obtain ⟨k, hk, hb⟩ := h
  refine ⟨by omega, k, hk, ?_⟩
  show k + wire.left ≤ b - 1
  omega

theorem Task.Left.mono {t : Task ι E R α} {b c : Nat} (h : t.Left b) (hbc : b ≤ c) : t.Left c := by
  obtain ⟨k, hk, hb⟩ := h
  exact ⟨k, hk, hb.trans hbc⟩

/-- What a step of task `i` does to the task itself. -/
theorem Act.exists_set {s s' : System obj ι α} {i : Nat} (h : Act link i s s') :
    ∃ t t', s.tasks[i]? = some t ∧ s'.tasks = s.tasks.set i t' ∧
      ∀ b, t.Left b → 0 < b ∧ t'.Left (b - 1) := by
  cases h with
  | answer r task rest inside => exact ⟨_, _, task, rfl, fun b hb => hb.next rest r _⟩
  | send task rest remote wire =>
    exact ⟨_, _, task, rfl, fun b hb => hb.wire _ (by rw [wire]; exact Nat.le_refl 3)⟩
  | serve task wire answers =>
    exact ⟨_, _, task, rfl, fun b hb => hb.wire _ (by rw [wire]; exact Nat.le_refl 2)⟩
  | @deliver t e r next task wire rest =>
    refine ⟨_, _, task, rfl, fun b hb => ?_⟩
    obtain ⟨hpos, hleft⟩ := hb.next rest r t.failed
    refine ⟨hpos, (hleft.wire .closed ?_).2.mono (Nat.sub_le _ _)⟩
    show 0 < t.wire.left
    rw [wire]
    exact Nat.one_pos
  | lose task busy => exact ⟨_, _, task, rfl, fun b hb => hb.wire _ (Wire.left_pos busy)⟩
  | @fail t e r next task wire rest fails => exact ⟨_, _, task, rfl, fun b hb => hb.next rest r _⟩

theorem Act.length_eq {s s' : System obj ι α} {i : Nat} (h : Act link i s s') :
    s'.tasks.length = s.tasks.length := by
  obtain ⟨t, t', -, hset, -⟩ := h.exists_set
  rw [hset, List.length_set]

/-- The tasks have at most `b` steps left together. -/
def System.Left (s : System obj ι α) (b : Nat) : Prop :=
  ∃ f : Nat → Nat, (∀ i (t : Task ι E R α), s.tasks[i]? = some t → t.Left (f i)) ∧
    ∑ i ∈ Finset.range s.tasks.length, f i ≤ b

theorem System.left_nil (state : obj.State) :
    System.Left (⟨[], state⟩ : System obj ι α) 0 :=
  ⟨fun _ => 0, fun _ _ h => by simp at h, Nat.le_refl 0⟩

theorem System.Left.start {s : System obj ι α} {b c : Nat} {label : ι} {rest : Dialogue E R α}
    (h : s.Left b) (hrest : rest.Within (fun _ => True) (fun _ => 1) c) :
    (s.start label rest).Left (b + (c + 3)) := by
  obtain ⟨f, hf, hsum⟩ := h
  refine ⟨Function.update f s.tasks.length (c + 3), fun i t ht => ?_, ?_⟩
  · rcases System.getElem?_start ht with ht | ⟨rfl, rfl⟩
    · rw [Function.update_of_ne (List.getElem?_eq_some_iff.mp ht).1.ne]
      exact hf i t ht
    · rw [Function.update_self]
      exact ⟨c, hrest, Nat.le_refl _⟩
  · simp only [System.start, List.length_append, List.length_singleton]
    rw [Finset.sum_range_succ, Function.update_self,
      Finset.sum_congr rfl fun i hi => Function.update_of_ne (Finset.mem_range.mp hi).ne _ _]
    omega

theorem Act.left {s s' : System obj ι α} {i b : Nat} (h : Act link i s s') (hb : s.Left b) :
    0 < b ∧ s'.Left (b - 1) := by
  obtain ⟨f, hf, hsum⟩ := hb
  obtain ⟨t, t', htask, hset, hleft⟩ := h.exists_set
  have hi := (List.getElem?_eq_some_iff.mp htask).1
  obtain ⟨hpos, hleft⟩ := hleft _ (hf i t htask)
  have hless : ∑ j ∈ Finset.range s.tasks.length, Function.update f i (f i - 1) j <
      ∑ j ∈ Finset.range s.tasks.length, f j := by
    refine Finset.sum_lt_sum (fun j _ => ?_) ⟨i, Finset.mem_range.mpr hi, ?_⟩
    · by_cases hij : j = i
      · rw [hij, Function.update_self]
        omega
      · rw [Function.update_of_ne hij]
    · rw [Function.update_self]
      omega
  refine ⟨by omega, Function.update f i (f i - 1), fun j u hu => ?_, ?_⟩
  · rw [hset] at hu
    by_cases hij : i = j
    · subst hij
      rw [List.getElem?_set_self hi] at hu
      cases hu
      rwa [Function.update_self]
    · rw [List.getElem?_set_ne hij] at hu
      rw [Function.update_of_ne (Ne.symm hij)]
      exact hf j u hu
  · rw [hset, List.length_set]
    omega

/-! ### Ends -/

/-- Task `i` can come to its end by steps of its own. -/
def CanFinish (link : Link E R) (i : Nat) (s : System obj ι α) (failed : Bool) : Prop :=
  ∃ s' t, Relation.ReflTransGen (Act link i) s s' ∧ s'.tasks[i]? = some t ∧ t.failed = failed ∧
    ∃ a, t.rest = .done a

theorem CanFinish.head {s s' : System obj ι α} {i : Nat} {failed : Bool} (h : Act link i s s')
    (hs' : CanFinish link i s' failed) : CanFinish link i s failed := by
  obtain ⟨s'', t, hsteps, ht⟩ := hs'
  exact ⟨s'', t, .head h hsteps, ht⟩

theorem canFinish_of_done {s : System obj ι α} {i : Nat} {t : Task ι E R α} {a : α} {failed : Bool}
    (task : s.tasks[i]? = some t) (hfailed : t.failed = failed) (rest : t.rest = .done a) :
    CanFinish link i s failed :=
  ⟨s, t, .refl, task, hfailed, a, rest⟩

section CanFinish

variable {i : Nat} {label : ι} {e : E} {respond : R e → α}

theorem getElem?_set_task {s : System obj ι α} {t t' : Task ι E R α} (task : s.tasks[i]? = some t) :
    (s.tasks.set i t')[i]? = some t' :=
  List.getElem?_set_self (List.getElem?_eq_some_iff.mp task).1

theorem canFinish_replying {s : System obj ι α} {r : R e}
    (task : s.tasks[i]? = some ⟨label, .ask e fun r => .done (respond r), .replying e r, false⟩) :
    CanFinish link i s false :=
  .head (.deliver task rfl rfl) (canFinish_of_done (getElem?_set_task task) rfl rfl)

theorem canFinish_calling {s : System obj ι α}
    (total : ∀ state : obj.State, ∃ r state', obj.Answers state e r state')
    (task : s.tasks[i]? = some ⟨label, .ask e fun r => .done (respond r), .calling e, false⟩) :
    CanFinish link i s false := by
  obtain ⟨r, state, hanswers⟩ := total s.state
  exact .head (.serve task rfl hanswers) (canFinish_replying (getElem?_set_task task))

theorem canFinish_idle {spec : Spec obj α} {rest : Dialogue E R α}
    (total : ∀ e, ¬link.Local e → ∀ state : obj.State, ∃ r state', obj.Answers state e r state')
    (inhabited : ∀ e, link.Local e → Nonempty (R e)) (h : Implements obj link spec rest)
    {s : System obj ι α} (task : s.tasks[i]? = some ⟨label, rest, .idle, false⟩) :
    CanFinish link i s false := by
  induction h generalizing s with
  | done acts => exact canFinish_of_done task rfl rfl
  | @answer e next inside _ ih =>
    obtain ⟨r⟩ := inhabited e inside
    exact .head (.answer r task rfl inside) (ih r (getElem?_set_task task))
  | @call e respond performs =>
    exact .head (.send task rfl performs.remote rfl)
      (canFinish_calling (total e performs.remote) (getElem?_set_task task))

/-- A task whose call is not lost can have its result from a reply, and every task can end. -/
theorem Explains.canFinish {spec : ι → Spec obj α} {s₀ : obj.State} {history : List (Entry ι α)}
    {s : System obj ι α} (h : Explains link spec s₀ history s)
    (total : ∀ e, ¬link.Local e → ∀ state : obj.State, ∃ r state', obj.Answers state e r state')
    (inhabited : ∀ e, link.Local e → Nonempty (R e))
    (fails : ∀ e, ¬link.Local e → ∃ r, link.Fails e r) {t : Task ι E R α}
    (task : s.tasks[i]? = some t) :
    ∃ failed, CanFinish link i s failed ∧
      (t.wire ≠ .closed → t.failed = false → failed = false) := by
  have hphase := h.phase task
  obtain ⟨label, rest, wire, failed⟩ := t
  dsimp only at hphase ⊢
  generalize resultsOf i history = results at hphase
  cases hphase with
  | idle implements => exact ⟨false, canFinish_idle total inhabited implements task, fun _ _ => rfl⟩
  | calling performs =>
    exact ⟨false, canFinish_calling (total _ performs.remote) task, fun _ _ => rfl⟩
  | replying performs r => exact ⟨false, canFinish_replying task, fun _ _ => rfl⟩
  | answered a => exact ⟨false, canFinish_of_done task rfl rfl, fun _ _ => rfl⟩
  | lost performs once =>
    obtain ⟨r, hfails⟩ := fails _ performs.remote
    have hact := Act.fail task nofun rfl hfails
    exact ⟨true, .head hact (canFinish_of_done (getElem?_set_task task) rfl rfl),
      fun hclosed => absurd rfl hclosed⟩
  | failedCalling _ _ | failed _ _ _ _ => exact ⟨true, canFinish_of_done task rfl rfl, nofun⟩

end CanFinish

end RemoteCalls
