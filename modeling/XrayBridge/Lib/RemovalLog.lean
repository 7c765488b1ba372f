import Mathlib.Order.BooleanAlgebra.Set

/-! Elements that are removed from a set one after another, and which of the removals find what they
remove. -/

namespace RemovalLog

variable {ι α : Type}

/-- A removal: its label, its element, and the set that the element is removed from. -/
structure Removal (ι α : Type) where
  label : ι
  element : α
  before : Set α

def Removal.Found (r : Removal ι α) : Prop := r.element ∈ r.before

/-- The removals, the latest first, take the set `s` to the set `t`. -/
inductive Takes (s : Set α) : List (Removal ι α) → Set α → Prop where
  | nil : Takes s [] s
  | cons {log : List (Removal ι α)} {t : Set α} (label : ι) (element : α) (h : Takes s log t) :
      Takes s (⟨label, element, t⟩ :: log) (t \ {element})

namespace Takes

variable {s t : Set α} {log : List (Removal ι α)} {r r' : Removal ι α}

/-- What is left does not depend on the order. -/
theorem eq_diff (h : Takes s log t) : t = s \ {a | ∃ r ∈ log, r.element = a} := by
  induction h with
  | nil => simp
  | cons label element h ih =>
    rw [ih]
    ext a
    simp only [Set.mem_sdiff, Set.mem_singleton_iff, Set.mem_ofPred_eq, List.mem_cons,
      exists_eq_or_imp, not_or, and_assoc]
    rw [and_comm (a := ¬∃ r ∈ _, _), eq_comm (a := a)]

theorem not_mem (h : Takes s log t) (hr : r ∈ log) : r.element ∉ t := by
  rw [h.eq_diff]
  exact fun hmem => hmem.2 ⟨r, hr, rfl⟩

theorem subset (h : Takes s log t) : t ⊆ s := by
  rw [h.eq_diff]
  exact Set.sdiff_subset

theorem mem_of_found (h : Takes s log t) (hr : r ∈ log) (hfound : r.Found) : r.element ∈ s := by
  induction h with
  | nil => cases hr
  | cons label element h ih =>
    rcases List.mem_cons.mp hr with rfl | hr
    · exact h.subset hfound
    · exact ih hr

/-- At most one removal finds an element. -/
theorem eq_of_found (h : Takes s log t) (hr : r ∈ log) (hr' : r' ∈ log)
    (helement : r.element = r'.element) (hfound : r.Found) (hfound' : r'.Found) : r = r' := by
  induction h with
  | nil => cases hr
  | cons label element h ih =>
    rcases List.mem_cons.mp hr with rfl | hr
    · rcases List.mem_cons.mp hr' with rfl | hr'
      · rfl
      · exact absurd (helement ▸ hfound) (h.not_mem hr')
    · rcases List.mem_cons.mp hr' with rfl | hr'
      · exact absurd (helement ▸ hfound') (h.not_mem hr)
      · exact ih hr hr'

/-- The first removal of an element that is there finds it. -/
theorem exists_found (h : Takes s log t) (hr : r ∈ log) (hs : r.element ∈ s) :
    ∃ r' ∈ log, r'.element = r.element ∧ r'.Found := by
  induction h generalizing r with
  | nil => cases hr
  | @cons log t label element h ih =>
    rcases List.mem_cons.mp hr with rfl | hr
    · by_cases ht : element ∈ t
      · exact ⟨_, List.mem_cons_self, rfl, ht⟩
      · have hearlier : ∃ r ∈ log, r.element = element := by
          rw [h.eq_diff] at ht
          by_contra hnone
          exact ht ⟨hs, hnone⟩
        obtain ⟨r, hearlier, rfl⟩ := hearlier
        obtain ⟨r', hr', hfound⟩ := ih hearlier hs
        exact ⟨r', List.mem_cons_of_mem _ hr', hfound⟩
    · obtain ⟨r', hr', hfound⟩ := ih hr hs
      exact ⟨r', List.mem_cons_of_mem _ hr', hfound⟩

end Takes

end RemovalLog
