import Mathlib.Algebra.BigOperators.Fin
import Mathlib.Algebra.Order.BigOperators.Group.List
import XrayBridge.Lib.RemoteCalls

/-! What follows for tasks and objects from a history that explains them: objects that share nothing
have histories of their own, and what every task gains by its result adds up to the change of the
object. -/

namespace RemoteCalls

variable {E : Type} {R : E → Type} {α ι : Type}

/-! ### Families of objects -/

section Family

variable {κ : Type} {objects : κ → Object E R} {reaches : E → κ → Prop} {link : Link E R}

/-- Objects that share nothing; a question goes to one that it reaches. -/
abbrev Object.family (objects : κ → Object E R) (reaches : E → κ → Prop) : Object E R where
  State := ∀ k, (objects k).State
  Answers s e r s' := ∃ k, reaches e k ∧ (objects k).Answers (s k) e r (s' k) ∧
    ∀ j, j ≠ k → s' j = s j
  Moves s s' := ∃ k, (objects k).Moves (s k) (s' k) ∧ ∀ j, j ≠ k → s' j = s j

open Classical in
theorem Object.family_answers {s : (Object.family objects reaches).State} {e : E} {r : R e} {k : κ}
    {s' : (objects k).State} (hreaches : reaches e k) (h : (objects k).Answers (s k) e r s') :
    ∃ after, (Object.family objects reaches).Answers s e r after ∧ after k = s' := by
  have hself : Function.update s k s' k = s' := Function.update_self k s' s
  exact ⟨_, ⟨k, hreaches, hself.symm ▸ h, fun j hj => Function.update_of_ne hj _ _⟩, hself⟩

open Classical in
theorem Object.exists_family_moves {s : (Object.family objects reaches).State} {k : κ}
    {s' : (objects k).State} (h : (objects k).Moves (s k) s') :
    ∃ after, (Object.family objects reaches).Moves s after ∧ after k = s' := by
  have hself : Function.update s k s' k = s' := Function.update_self k s' s
  exact ⟨_, ⟨k, hself.symm ▸ h, fun j hj => Function.update_of_ne hj _ _⟩, hself⟩

theorem Object.family_moves {s s' : (Object.family objects reaches).State}
    (h : (Object.family objects reaches).Moves s s') (k : κ) :
    (objects k).Moves (s k) (s' k) ∨ s' k = s k := by
  obtain ⟨j, hmoves, hframe⟩ := h
  by_cases hjk : k = j
  · subst hjk
    exact Or.inl hmoves
  · exact Or.inr (hframe k hjk)

/-- A task whose questions reach one object only runs on that object as if it were alone. -/
theorem Runs.component {s s' : (Object.family objects reaches).State} {m : Dialogue E R α} {a : α}
    (h : Runs (.family objects reaches) link s m a s') {k : κ}
    (honly : ∀ e j, m.Asks e → reaches e j → j = k) :
    Runs (objects k) link (s k) m a (s' k) ∧ ∀ j, j ≠ k → s' j = s j := by
  induction h with
  | done s a => exact ⟨.done _ _, fun _ _ => rfl⟩
  | answer r inside _ ih =>
    obtain ⟨hruns, hothers⟩ := ih fun e j hasks => honly e j (.later r hasks)
    exact ⟨.answer r inside hruns, hothers⟩
  | @call _ _ _ _ _ _ r remote answers _ ih =>
    obtain ⟨j, hreaches, hanswers, hframe⟩ := answers
    obtain rfl := honly _ j .here hreaches
    obtain ⟨hruns, hothers⟩ := ih fun e j hasks => honly e j (.later r hasks)
    exact ⟨.call remote hanswers hruns, fun i hi => (hothers i hi).trans (hframe i hi)⟩

/-- A task whose questions reach no object leaves all objects alone. -/
theorem Runs.silent {s s' : (Object.family objects reaches).State} {m : Dialogue E R α} {a : α}
    (h : Runs (.family objects reaches) link s m a s')
    (hnone : ∀ e k, m.Asks e → ¬reaches e k) (k : κ) : s' k = s k := by
  induction h with
  | done s a => rfl
  | answer r inside _ ih => exact ih fun e j hasks => hnone e j (.later r hasks)
  | call remote answers _ _ =>
    obtain ⟨j, hreaches, -⟩ := answers
    exact absurd hreaches (hnone _ j .here)

/-- The history of one object: the entries that touch it are all there is to its state. -/
theorem Sequential.component
    {acts : ι → (Object.family objects reaches).State → α →
      (Object.family objects reaches).State → Prop}
    {s₀ s : (Object.family objects reaches).State} {history : List (Entry ι α)}
    (h : Sequential (.family objects reaches) acts s₀ history s) (k : κ) (touches : ι → Bool)
    {acts' : ι → (objects k).State → α → (objects k).State → Prop}
    (hmine : ∀ label s a s', touches label = true → acts label s a s' →
      acts' label (s k) a (s' k))
    (hother : ∀ label s a s', touches label = false → acts label s a s' → s' k = s k) :
    Sequential (objects k) acts' (s₀ k) (history.filter fun entry => touches entry.label)
      (s k) := by
  induction h with
  | nil => exact .nil
  | @cons history s s' entry _ act ih =>
    cases htouches : touches entry.label with
    | true =>
      rw [List.filter_cons, if_pos htouches]
      exact .cons entry ih (hmine _ _ _ _ htouches act)
    | false =>
      rw [List.filter_cons, if_neg (by simp [htouches]), hother _ _ _ _ htouches act]
      exact ih
  | @move history s s' _ moves ih =>
    rcases Object.family_moves moves k with hmoves | hsame
    · exact .move ih hmoves
    · rw [hsame]
      exact ih

end Family

/-- What holds at the start holds after a history if the object keeps it when it moves and each
entry keeps it. -/
theorem Sequential.preserved {obj : Object E R} {acts : ι → obj.State → α → obj.State → Prop}
    {s₀ s : obj.State} {history : List (Entry ι α)} (h : Sequential obj acts s₀ history s)
    {P : obj.State → Prop} (hstart : P s₀) (hmoves : ∀ s s', obj.Moves s s' → P s → P s')
    (hacts : ∀ entry ∈ history, ∀ s s', acts entry.label s entry.result s' → P s → P s') : P s := by
  induction h with
  | nil => exact hstart
  | cons entry _ act ih =>
    exact hacts entry List.mem_cons_self _ _ act
      (ih fun other hmem => hacts other (List.mem_cons_of_mem _ hmem))
  | move _ moves ih => exact hmoves _ _ moves (ih hacts)

/-- A history in two parts. -/
theorem Sequential.split {obj : Object E R} {acts : ι → obj.State → α → obj.State → Prop}
    {s₀ s : obj.State} {later earlier : List (Entry ι α)}
    (h : Sequential obj acts s₀ (later ++ earlier) s) :
    ∃ mid, Sequential obj acts s₀ earlier mid ∧ Sequential obj acts mid later s := by
  generalize hhistory : later ++ earlier = history at h
  induction h generalizing later with
  | nil =>
    obtain ⟨rfl, rfl⟩ := List.append_eq_nil_iff.mp hhistory
    exact ⟨_, .nil, .nil⟩
  | cons entry before act ih =>
    cases later with
    | nil =>
      obtain rfl : earlier = _ := hhistory
      exact ⟨_, .cons entry before act, .nil⟩
    | cons other later =>
      obtain ⟨rfl, hrest⟩ := List.cons.inj hhistory
      obtain ⟨mid, hearlier, hlater⟩ := ih hrest
      exact ⟨mid, hearlier, .cons _ hlater act⟩
  | move _ moves ih =>
    obtain ⟨mid, hearlier, hlater⟩ := ih hhistory
    exact ⟨mid, hearlier, .move hlater moves⟩

/-! ### Real time -/

section RealTime

variable {obj : Object E R} {acts : ι → obj.State → α → obj.State → Prop} {s₀ s : obj.State}
  {history : List (Entry ι α)} {P : obj.State → Prop}

/-- What holds at the start is what each entry finds if it is kept. -/
theorem Sequential.found (h : Sequential obj acts s₀ history s) (hstart : P s₀)
    (hmoves : ∀ s s', obj.Moves s s' → P s → P s')
    (hacts : ∀ entry ∈ history, ∀ s s', acts entry.label s entry.result s' → P s → P s')
    {entry : Entry ι α} (hmem : entry ∈ history) :
    ∃ s s', P s ∧ acts entry.label s entry.result s' := by
  induction h with
  | nil => cases hmem
  | cons latest before act ih =>
    have hbefore : ∀ other ∈ _, _ :=
      fun other hother => hacts other (List.mem_cons_of_mem latest hother)
    rcases List.mem_cons.mp hmem with rfl | hmem
    · exact ⟨_, _, before.preserved hstart hmoves hbefore, act⟩
    · exact ih hbefore hmem
  | move _ _ ih => exact ih hacts hmem

end RealTime

/-! ### Accounts -/

section Accounts

variable {obj : Object E R} {link : Link E R} {spec : ι → Spec obj α} {s₀ : obj.State}
  {history : List (Entry ι α)} {s : System obj ι α} {A : Type} [AddCommMonoid A]

/-- If every entry of a history changes a value by what its label gains from its result, then the
value changes by the sum of these. -/
theorem Sequential.account {acts : ι → obj.State → α → obj.State → Prop} {state : obj.State}
    (h : Sequential obj acts s₀ history state) (value : obj.State → A) (gain : ι → α → A)
    (hmoves : ∀ s s', obj.Moves s s' → value s' = value s)
    (hacts : ∀ entry ∈ history, ∀ s s', acts entry.label s entry.result s' →
      value s' = gain entry.label entry.result + value s) :
    value state = (history.map fun entry => gain entry.label entry.result).sum + value s₀ := by
  induction h with
  | nil => simp
  | cons entry _ act ih =>
    rw [hacts entry List.mem_cons_self _ _ act, List.map_cons, List.sum_cons, add_assoc,
      ih fun other hmem => hacts other (List.mem_cons_of_mem _ hmem)]
  | move _ moves ih => rw [hmoves _ _ moves, ih hacts]

/-- What a task gains by its result. -/
def Task.gained (gain : ι → α → A) (t : Task ι E R α) : A := t.result.elim 0 (gain t.label)

/-- The entries whose results have not come back. -/
def unseen (s : System obj ι α) (history : List (Entry ι α)) : List (Entry ι α) :=
  history.filter fun entry => (s.tasks[entry.number]?.bind Task.result).isNone

/-- A sum over a history, task by task. -/
theorem sum_map_eq_sum_range {n : Nat} (f : Entry ι α → A)
    (hn : ∀ entry ∈ history, entry.number < n) :
    (history.map f).sum =
      ∑ i ∈ Finset.range n, ((history.filter fun entry => entry.number = i).map f).sum := by
  induction history with
  | nil => simp
  | cons entry history ih =>
    have hentry := hn entry List.mem_cons_self
    have hsingle : ∑ i ∈ Finset.range n, (if entry.number = i then f entry else 0) = f entry := by
      rw [Finset.sum_ite_eq, if_pos (Finset.mem_range.mpr hentry)]
    rw [List.map_cons, List.sum_cons, ih fun other hmem => hn other (List.mem_cons_of_mem _ hmem),
      ← hsingle, ← Finset.sum_add_distrib]
    refine Finset.sum_congr rfl fun i _ => ?_
    by_cases hi : entry.number = i <;> simp [hi]

/-- What the object has done for task `i` is what the task gains, or the task does not know it. -/
theorem Explains.sum_task (h : Explains link spec s₀ history s) (gain : ι → α → A) {i : Nat}
    {t : Task ι E R α} (task : s.tasks[i]? = some t)
    (hquiet : ∀ a, (∀ state, (spec t.label).Acts state a state) → gain t.label a = 0) :
    ((history.filter fun entry => entry.number = i).map
        fun entry => gain entry.label entry.result).sum =
      t.gained gain + (((unseen s history).filter fun entry => entry.number = i).map
        fun entry => gain entry.label entry.result).sum := by
  have hresults : (history.filter fun entry => entry.number = i).map
      (fun entry => gain entry.label entry.result) =
      (resultsOf i history).map (gain t.label) := by
    rw [resultsOf, List.map_map]
    refine List.map_congr_left fun entry hmem => ?_
    obtain ⟨hmem, hnumber⟩ := List.mem_filter.mp hmem
    obtain ⟨t', htask', hlabel⟩ := h.entries hmem
    rw [of_decide_eq_true hnumber, task] at htask'
    cases htask'
    rw [Function.comp_apply, hlabel]
  have hunseen : (unseen s history).filter (fun entry => entry.number = i) =
      if t.result.isNone then history.filter fun entry => entry.number = i else [] := by
    rw [unseen, List.filter_filter]
    split
    · rename_i hnone
      refine List.filter_congr fun entry _ => ?_
      by_cases hi : entry.number = i
      · simp [hi, task, hnone]
      · simp [hi]
    · rename_i hsome
      refine List.filter_eq_nil_iff.mpr fun entry _ hboth => ?_
      rw [Bool.and_eq_true, decide_eq_true_eq] at hboth
      obtain ⟨rfl, hnone⟩ := hboth
      rw [task] at hnone
      exact hsome hnone
  rw [hunseen, Task.gained]
  cases hresult : t.result with
  | none => simp
  | some a =>
    rw [hresults]
    rcases h.answered task hresult with hone | ⟨hnone, hacts⟩
    · simp [hone]
    · simp [hnone, hquiet _ hacts]

theorem sum_tasks (gain : ι → α → A) (tasks : List (Task ι E R α)) :
    (tasks.map (Task.gained gain)).sum =
      ∑ i ∈ Finset.range tasks.length, (tasks[i]?.elim 0 (Task.gained gain)) := by
  rw [Finset.sum_range, ← Fin.sum_univ_fun_getElem]
  exact Finset.sum_congr rfl fun i _ => by simp

theorem Explains.sum_history (h : Explains link spec s₀ history s) (gain : ι → α → A)
    (hquiet : ∀ t ∈ s.tasks, ∀ a, (∀ state, (spec t.label).Acts state a state) →
      gain t.label a = 0) :
    (history.map fun entry => gain entry.label entry.result).sum =
      (s.tasks.map (Task.gained gain)).sum +
        ((unseen s history).map fun entry => gain entry.label entry.result).sum := by
  have hnumber : ∀ entry ∈ history, entry.number < s.tasks.length := fun entry hmem => by
    obtain ⟨t, htask, -⟩ := h.entries hmem
    exact (List.getElem?_eq_some_iff.mp htask).1
  have hunseen : ∀ entry ∈ unseen s history, entry.number < s.tasks.length :=
    fun entry hmem => hnumber entry (List.mem_of_mem_filter hmem)
  rw [sum_map_eq_sum_range _ hnumber, sum_map_eq_sum_range _ hunseen, sum_tasks,
    ← Finset.sum_add_distrib]
  refine Finset.sum_congr rfl fun i hi => ?_
  have htask := List.getElem?_eq_getElem (Finset.mem_range.mp hi)
  rw [h.sum_task gain htask (hquiet _ (List.mem_of_getElem? htask)), htask]
  rfl

/-- What holds of the results of the tasks holds of the entries. -/
theorem Explains.entry_acts (h : Explains link spec s₀ history s)
    {p : ι → obj.State → α → obj.State → Prop}
    (hacts : ∀ t ∈ s.tasks, ∀ a s s', (spec t.label).Acts s a s' → p t.label s a s')
    {entry : Entry ι α} (hmem : entry ∈ history) {state state' : obj.State}
    (act : (spec entry.label).Acts state entry.result state') :
    p entry.label state entry.result state' := by
  obtain ⟨t, htask, hlabel⟩ := h.entries hmem
  rw [← hlabel] at act ⊢
  exact hacts t (List.mem_of_getElem? htask) _ _ _ act

/-- The value of the object has changed by what the tasks have gained, and by what the results are
worth that have not come back. -/
theorem Explains.account (h : Explains link spec s₀ history s) (value : obj.State → A)
    (gain : ι → α → A) (hmoves : ∀ s s', obj.Moves s s' → value s' = value s)
    (hacts : ∀ t ∈ s.tasks, ∀ a s s', (spec t.label).Acts s a s' →
      value s' = gain t.label a + value s)
    (hquiet : ∀ t ∈ s.tasks, ∀ a, (∀ state, (spec t.label).Acts state a state) →
      gain t.label a = 0) :
    value s.state = (s.tasks.map (Task.gained gain)).sum +
      ((unseen s history).map fun entry => gain entry.label entry.result).sum + value s₀ := by
  rw [h.sequential.account value gain hmoves fun entry hmem s s' act =>
      h.entry_acts (p := fun label s a s' => value s' = gain label a + value s) hacts hmem act,
    h.sum_history gain hquiet]

end Accounts

/-! ### Bounds -/

section Bounds

variable {obj : Object E R} {link : Link E R} {spec : ι → Spec obj α} {s₀ : obj.State}
  {history : List (Entry ι α)} {A : Type} [AddCommMonoid A] [PartialOrder A]
  [IsOrderedCancelAddMonoid A]

theorem Sequential.account_le {acts : ι → obj.State → α → obj.State → Prop} {state : obj.State}
    (h : Sequential obj acts s₀ history state) (value : obj.State → A) (gain : ι → α → A)
    (hmoves : ∀ s s', obj.Moves s s' → value s ≤ value s')
    (hacts : ∀ entry ∈ history, ∀ s s', acts entry.label s entry.result s' →
      0 ≤ gain entry.label entry.result ∧ gain entry.label entry.result + value s ≤ value s') :
    (∀ entry ∈ history, 0 ≤ gain entry.label entry.result) ∧
      (history.map fun entry => gain entry.label entry.result).sum + value s₀ ≤ value state := by
  induction h with
  | nil => simp
  | cons entry before act ih =>
    obtain ⟨hnonneg, hbefore⟩ := ih fun other hmem => hacts other (List.mem_cons_of_mem _ hmem)
    obtain ⟨hgain, hvalue⟩ := hacts entry List.mem_cons_self _ _ act
    refine ⟨List.forall_mem_cons.mpr ⟨hgain, hnonneg⟩, ?_⟩
    rw [List.map_cons, List.sum_cons, add_assoc]
    exact (add_le_add_right hbefore _).trans hvalue
  | move _ moves ih =>
    obtain ⟨hnonneg, hbefore⟩ := ih hacts
    exact ⟨hnonneg, hbefore.trans (hmoves _ _ moves)⟩

/-- If every result of a task is worth no more than the change of the value of the object, then so
are the results together that have come back. -/
theorem Explains.account_le {s : System obj ι α} (h : Explains link spec s₀ history s)
    (value : obj.State → A) (gain : ι → α → A)
    (hmoves : ∀ s s', obj.Moves s s' → value s ≤ value s')
    (hacts : ∀ t ∈ s.tasks, ∀ a s s', (spec t.label).Acts s a s' →
      0 ≤ gain t.label a ∧ gain t.label a + value s ≤ value s') :
    (s.tasks.map (Task.gained gain)).sum + value s₀ ≤ value s.state := by
  have hquiet : ∀ t ∈ s.tasks, ∀ a, (∀ state, (spec t.label).Acts state a state) →
      gain t.label a = 0 := by
    intro t ht a hquiet
    obtain ⟨hgain, hvalue⟩ := hacts t ht a s₀ s₀ (hquiet s₀)
    exact le_antisymm (le_of_add_le_add_right (hvalue.trans_eq (zero_add _).symm)) hgain
  obtain ⟨hnonneg, hvalue⟩ := h.sequential.account_le value gain hmoves fun entry hmem s s' act =>
    h.entry_acts (p := fun label s a s' => 0 ≤ gain label a ∧ gain label a + value s ≤ value s')
      hacts hmem act
  rw [h.sum_history gain hquiet] at hvalue
  have hunseen : 0 ≤ ((unseen s history).map fun entry => gain entry.label entry.result).sum := by
    refine List.sum_nonneg fun x hx => ?_
    obtain ⟨entry, hentry, rfl⟩ := List.mem_map.mp hx
    exact hnonneg entry (List.mem_of_mem_filter hentry)
  exact (add_le_add_left (le_add_of_nonneg_right hunseen) _).trans hvalue

end Bounds

end RemoteCalls
