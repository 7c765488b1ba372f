import Mathlib.Data.List.Basic
import Mathlib.Data.List.Infix

/-! Splitting a list at the occurrences of a separator, from left to right and without overlaps,
and the lists of parts that splitting recovers from their joined form. -/

namespace Separator

variable {α : Type} [DecidableEq α]

/-- The parts of a list after its first `n` elements, which belong to a separator. -/
def cut (sep : List α) : Nat → List α → List (List α)
  | _, [] => [[]]
  | n + 1, _ :: l => cut sep n l
  | 0, x :: l =>
    if sep <+: x :: l then [] :: cut sep (sep.length - 1) l
    else (cut sep 0 l).modifyHead (x :: ·)

/-- The parts of a list between the leftmost occurrences of the separator that do not overlap. -/
def split (sep l : List α) : List (List α) := cut sep 0 l

/-- How many of these occurrences a list has, after its first `n` elements. -/
def occurrences (sep : List α) : Nat → List α → Nat
  | _, [] => 0
  | n + 1, _ :: l => occurrences sep n l
  | 0, x :: l =>
    if sep <+: x :: l then occurrences sep (sep.length - 1) l + 1 else occurrences sep 0 l

variable {sep : List α}

theorem length_cut (n : Nat) (l : List α) : (cut sep n l).length = occurrences sep n l + 1 := by
  induction l generalizing n with
  | nil => cases n <;> rfl
  | cons x l ih =>
    cases n with
    | succ n => exact ih n
    | zero =>
      rw [cut, occurrences]
      split
      · rw [List.length_cons, ih]
      · rw [List.length_modifyHead, ih]

theorem cut_eq_split (n : Nat) (l : List α) : cut sep n l = split sep (l.drop n) := by
  induction n generalizing l with
  | zero => rfl
  | succ n ih =>
    cases l with
    | nil => rfl
    | cons x l => exact ih l

@[simp] theorem split_nil : split sep [] = [[]] := rfl

theorem split_sep_append (hsep : sep ≠ []) (l : List α) :
    split sep (sep ++ l) = [] :: split sep l := by
  cases sep with
  | nil => exact absurd rfl hsep
  | cons s rest =>
    rw [List.cons_append, split, cut, if_pos (by simp), cut_eq_split]
    congr 2
    simp

theorem split_cons {x : α} {l : List α} (h : ¬sep <+: x :: l) :
    split sep (x :: l) = (split sep l).modifyHead (x :: ·) := by
  rw [split, cut, if_neg h]
  rfl

theorem split_induction (hsep : sep ≠ []) {motive : List α → Prop} (nil : motive [])
    (separator : ∀ l, motive l → motive (sep ++ l))
    (cons : ∀ x l, ¬sep <+: x :: l → motive l → motive (x :: l)) (l : List α) : motive l := by
  induction h : l.length using Nat.strong_induction_on generalizing l with
  | _ n ih =>
    subst h
    cases l with
    | nil => exact nil
    | cons x l =>
      by_cases hp : sep <+: x :: l
      · obtain ⟨r, hr⟩ := hp
        rw [← hr]
        refine separator r (ih r.length ?_ r rfl)
        have hpos := List.length_pos_iff.mpr hsep
        rw [← hr, List.length_append]
        omega
      · exact cons x l hp (ih l.length (by simp) l rfl)

theorem split_ne_nil (hsep : sep ≠ []) (l : List α) : split sep l ≠ [] := by
  induction l using split_induction hsep with
  | nil => simp
  | separator l _ => rw [split_sep_append hsep]; simp
  | cons x l hx ih => rw [split_cons hx]; simpa using ih

/-- Joining undoes splitting. -/
theorem intercalate_split (hsep : sep ≠ []) (l : List α) :
    sep.intercalate (split sep l) = l := by
  induction l using split_induction hsep with
  | nil => rfl
  | separator l ih =>
    rw [split_sep_append hsep, List.intercalate_cons_of_ne_nil (split_ne_nil hsep l), ih]
    rfl
  | cons x l hx ih =>
    rw [split_cons hx]
    obtain ⟨p, ps, hps⟩ := List.exists_cons_of_ne_nil (split_ne_nil hsep l)
    rw [hps] at ih ⊢
    rw [List.modifyHead_cons, ← ih]
    cases ps with
    | nil => rfl
    | cons q qs => rfl

theorem split_head_prefix (hsep : sep ≠ []) {l p : List α} {ps : List (List α)}
    (h : split sep l = p :: ps) : p <+: l := by
  rw [← intercalate_split hsep l, h]
  cases ps with
  | nil => rw [List.intercalate_singleton]
  | cons q qs => exact ⟨sep ++ sep.intercalate (q :: qs), by simp [List.intercalate_cons_cons]⟩

theorem not_infix_of_mem_split (hsep : sep ≠ []) {l p : List α} (h : p ∈ split sep l) :
    ¬sep <:+: p := by
  have hnil : ¬sep <:+: ([] : List α) := by simpa using hsep
  induction l using split_induction hsep generalizing p with
  | nil => rwa [List.mem_singleton.mp h]
  | separator l ih =>
    rw [split_sep_append hsep] at h
    rcases List.mem_cons.mp h with rfl | h
    · exact hnil
    · exact ih h
  | cons x l hx ih =>
    obtain ⟨q, qs, hqs⟩ := List.exists_cons_of_ne_nil (split_ne_nil hsep l)
    rw [split_cons hx, hqs, List.modifyHead_cons] at h
    rcases List.mem_cons.mp h with rfl | h
    · intro hin
      rcases List.infix_cons_iff.mp hin with hpre | hin
      · obtain ⟨r, hr⟩ := split_head_prefix hsep hqs
        exact hx (hpre.trans ⟨r, by rw [List.cons_append, hr]⟩)
      · exact ih (by rw [hqs]; exact List.mem_cons_self) hin
    · exact ih (by rw [hqs]; exact List.mem_cons_of_mem _ h)

/-- In `a` followed by a separator, no occurrence of the separator starts inside `a`. -/
def CutFree (sep : List α) : List α → Prop
  | [] => True
  | x :: a => ¬sep <+: x :: (a ++ sep) ∧ CutFree sep a

theorem split_append (hsep : sep ≠ []) {a : List α} (h : CutFree sep a) (l : List α) :
    split sep (a ++ (sep ++ l)) = a :: split sep l := by
  induction a with
  | nil => exact split_sep_append hsep l
  | cons x a ih =>
    have hx : ¬sep <+: x :: (a ++ (sep ++ l)) := by
      intro hp
      refine h.1 (List.prefix_of_prefix_length_le hp ⟨l, by simp⟩ ?_)
      simp only [List.length_cons, List.length_append]
      omega
    rw [List.cons_append, split_cons hx, ih h.2, List.modifyHead_cons]

theorem split_of_not_infix {a : List α} (h : ¬sep <:+: a) : split sep a = [a] := by
  induction a with
  | nil => rfl
  | cons x a ih =>
    rw [List.infix_cons_iff, not_or] at h
    rw [split_cons h.1, ih h.2, List.modifyHead_cons]

theorem split_eq_cons_cons (hsep : sep ≠ []) {l p q : List α} {qs : List (List α)}
    (h : split sep l = p :: q :: qs) :
    CutFree sep p ∧ ∃ r, l = p ++ (sep ++ r) ∧ split sep r = q :: qs := by
  induction l using split_induction hsep generalizing p with
  | nil => simp at h
  | separator l _ =>
    rw [split_sep_append hsep, List.cons.injEq] at h
    obtain ⟨rfl, h⟩ := h
    exact ⟨trivial, l, rfl, h⟩
  | cons x l hx ih =>
    obtain ⟨p', ps, hps⟩ := List.exists_cons_of_ne_nil (split_ne_nil hsep l)
    rw [split_cons hx, hps, List.modifyHead_cons, List.cons.injEq] at h
    obtain ⟨rfl, rfl⟩ := h
    obtain ⟨hfree, r, hr, hsplit⟩ := ih hps
    refine ⟨⟨fun hp => hx (hp.trans ⟨r, ?_⟩), hfree⟩, r, ?_, hsplit⟩
    · rw [hr]; simp
    · rw [hr]; rfl

/-- The parts that splitting recovers from their joined form: all but the last are free of cuts,
and the last does not contain the separator. -/
def Splittable (sep : List α) : List (List α) → Prop
  | [] => False
  | [p] => ¬sep <:+: p
  | p :: q :: qs => CutFree sep p ∧ Splittable sep (q :: qs)

theorem splittable_split (hsep : sep ≠ []) (l : List α) : Splittable sep (split sep l) := by
  induction h : (split sep l).length using Nat.strong_induction_on generalizing l with
  | _ n ih =>
    match hl : split sep l with
    | [] => exact absurd hl (split_ne_nil hsep l)
    | [p] => exact not_infix_of_mem_split hsep (by rw [hl]; exact List.mem_singleton_self p)
    | p :: q :: qs =>
      obtain ⟨hfree, r, -, hr⟩ := split_eq_cons_cons hsep hl
      refine ⟨hfree, ?_⟩
      rw [← hr]
      exact ih _ (by rw [← h, hl, hr]; simp) r rfl

theorem split_intercalate (hsep : sep ≠ []) {ps : List (List α)} (h : Splittable sep ps) :
    split sep (sep.intercalate ps) = ps := by
  induction ps with
  | nil => exact h.elim
  | cons p ps ih =>
    cases ps with
    | nil => rw [List.intercalate_singleton, split_of_not_infix h]
    | cons q qs =>
      rw [List.intercalate_cons_cons, List.append_assoc, split_append hsep h.1, ih h.2]

/-- Splitting and joining are inverse to each other between all lists and the splittable lists of
parts. -/
theorem split_intercalate_iff (hsep : sep ≠ []) {ps : List (List α)} :
    split sep (sep.intercalate ps) = ps ↔ Splittable sep ps :=
  ⟨fun h => h ▸ splittable_split hsep _, split_intercalate hsep⟩

/-! ### Separators of one repeated element -/

omit [DecidableEq α] in
theorem eq_of_mem_prefix_replicate {n : Nat} {c x : α} {l : List α}
    (h : l <+: List.replicate n c) (hx : x ∈ l) : x = c :=
  List.eq_of_mem_replicate (h.subset hx)

omit [DecidableEq α] in
/-- Before a run of `c`, a cut inside a list is an occurrence in it or a `c` at its end. -/
theorem cutFree_replicate_iff {n : Nat} {c : α} {a : List α} :
    CutFree (List.replicate (n + 1) c) a ↔
      ¬List.replicate (n + 1) c <:+: a ∧ a.getLast? ≠ some c := by
  induction a with
  | nil => simp [CutFree]
  | cons x a ih =>
    rw [CutFree, ih, List.infix_cons_iff, not_or]
    by_cases ha : a = []
    · subst ha
      have hlast : [x].getLast? ≠ some c ↔ x ≠ c := by simp
      rw [hlast]
      constructor
      · rintro ⟨h, -⟩
        have hx : x ≠ c := by
          rintro rfl
          exact h ⟨[x], by rw [← List.replicate_succ']; rfl⟩
        refine ⟨⟨fun hp => hx ?_, by simp⟩, hx⟩
        rw [List.replicate_succ] at hp
        exact ((List.cons_prefix_cons.mp hp).1).symm
      · rintro ⟨-, hx⟩
        refine ⟨fun hp => hx ?_, by simp, by simp⟩
        rw [List.replicate_succ] at hp
        exact ((List.cons_prefix_cons.mp hp).1).symm
    · have hlast : (x :: a).getLast? = a.getLast? := by
        rw [List.getLast?_cons_of_ne_nil ha]
      rw [hlast]
      constructor
      · rintro ⟨hp, hin, hl⟩
        refine ⟨⟨fun h => hp (h.trans ⟨_, List.cons_append⟩), hin⟩, hl⟩
      · rintro ⟨⟨hp, hin⟩, hl⟩
        refine ⟨fun h => ?_, hin, hl⟩
        rw [← List.cons_append] at h
        rcases List.prefix_or_prefix_of_prefix h (List.prefix_append _ _) with h | h
        · exact hp h
        · have hmem : a.getLast ha ∈ x :: a := List.mem_cons_of_mem _ (List.getLast_mem ha)
          rw [List.getLast?_eq_some_getLast ha, eq_of_mem_prefix_replicate h hmem] at hl
          exact hl rfl

omit [DecidableEq α] in
/-- The lists of parts that splitting recovers: no part contains the separator, and none but the
last ends with its element. -/
theorem splittable_replicate_iff {n : Nat} {c : α} {parts : List (List α)} :
    Splittable (List.replicate (n + 1) c) parts ↔
      parts ≠ [] ∧ (∀ p ∈ parts, ¬List.replicate (n + 1) c <:+: p) ∧
      ∀ p ∈ parts.dropLast, p.getLast? ≠ some c := by
  induction parts with
  | nil => simp [Splittable]
  | cons p parts ih =>
    cases parts with
    | nil => simp [Splittable]
    | cons q qs =>
      rw [Splittable, ih, cutFree_replicate_iff, List.dropLast_cons_cons,
        List.forall_mem_cons (l := q :: qs), List.forall_mem_cons (l := (q :: qs).dropLast)]
      constructor
      · rintro ⟨⟨hp, hlast⟩, -, hin, hrest⟩
        exact ⟨by simp, ⟨hp, hin⟩, hlast, hrest⟩
      · rintro ⟨-, ⟨hp, hin⟩, hlast, hrest⟩
        exact ⟨⟨hp, hlast⟩, by simp, hin, hrest⟩

omit [DecidableEq α] in
theorem splittable_of_notMem {n : Nat} {c : α} {parts : List (List α)} (hne : parts ≠ [])
    (h : ∀ p ∈ parts, c ∉ p) : Splittable (List.replicate (n + 1) c) parts := by
  refine splittable_replicate_iff.mpr ⟨hne, fun p hp hin => ?_, fun p hp hlast => ?_⟩
  · exact h p hp (hin.subset (by simp))
  · exact h p (List.mem_of_mem_dropLast hp) (List.mem_of_getLast? hlast)

omit [DecidableEq α] in
/-- Before a separator, a text without the separator's element reaches exactly to the next one. -/
theorem append_replicate_prefix_iff {n : Nat} {c : α} {p a l : List α} (hcp : c ∉ p)
    (hca : c ∉ a) :
    p ++ List.replicate (n + 1) c <+: a ++ (List.replicate (n + 1) c ++ l) ↔ p = a := by
  induction p generalizing a with
  | nil =>
    cases a with
    | nil => simp
    | cons y a =>
      refine iff_of_false (fun h => ?_) (by simp)
      rw [List.nil_append, List.replicate_succ, List.cons_append, List.cons_prefix_cons] at h
      exact hca (h.1 ▸ List.mem_cons_self)
  | cons x p ih =>
    rw [List.mem_cons, not_or] at hcp
    cases a with
    | nil =>
      refine iff_of_false (fun h => ?_) (by simp)
      rw [List.nil_append, List.replicate_succ, List.cons_append, List.cons_append,
        List.cons_prefix_cons] at h
      exact hcp.1 h.1.symm
    | cons y a =>
      rw [List.mem_cons, not_or] at hca
      rw [List.cons_append, List.cons_append, List.cons_prefix_cons, ih hcp.2 hca.2,
        List.cons.injEq]

omit [DecidableEq α] in
/-- What starts with another element does not start inside a run of `c`. -/
theorem infix_replicate_append_iff {n : Nat} {c x : α} {p l : List α} (hx : x ≠ c) :
    x :: p <:+: List.replicate n c ++ l ↔ x :: p <:+: l := by
  induction n with
  | zero => rfl
  | succ n ih =>
    rw [List.replicate_succ, List.cons_append, List.infix_cons_iff, ih, List.cons_prefix_cons]
    exact or_iff_right fun h => hx h.1

omit [DecidableEq α] in
/-- A part and a separator occur in `a`, a separator and `l`, where `a` is free of the separator's
element, only at the end of `a` or in `l`. -/
theorem infix_append_replicate {n : Nat} {c : α} {p a l : List α} (hp : p ≠ []) (hcp : c ∉ p)
    (hca : c ∉ a) :
    p ++ List.replicate (n + 1) c <:+: a ++ (List.replicate (n + 1) c ++ l) ↔
      p <:+ a ∨ p ++ List.replicate (n + 1) c <:+: l := by
  induction a with
  | nil =>
    obtain ⟨x, p, rfl⟩ := List.exists_cons_of_ne_nil hp
    have hx : x ≠ c := fun h => hcp (h ▸ List.mem_cons_self)
    rw [List.nil_append, List.cons_append, infix_replicate_append_iff hx]
    simp
  | cons y a ih =>
    have hcons := append_replicate_prefix_iff (n := n) (l := l) hcp hca
    rw [List.cons_append] at hcons
    rw [List.cons_append, List.infix_cons_iff, hcons,
      ih fun h => hca (List.mem_cons_of_mem _ h), List.suffix_cons_iff, or_assoc]

omit [DecidableEq α] in
/-- Where no part has the separator's element, `p` stands before a separator in the joined parts
exactly when a part that is not the last one ends with `p`. -/
theorem infix_intercalate_iff {n : Nat} {c : α} {p : List α} {parts : List (List α)} (hp : p ≠ [])
    (hcp : c ∉ p) (hparts : ∀ q ∈ parts, c ∉ q) :
    p ++ List.replicate (n + 1) c <:+: (List.replicate (n + 1) c).intercalate parts ↔
      ∃ q ∈ parts.dropLast, p <:+ q := by
  induction parts with
  | nil => simp
  | cons q parts ih =>
    cases parts with
    | nil =>
      rw [List.intercalate_singleton]
      refine iff_of_false (fun h => ?_) (by simp)
      exact hparts q List.mem_cons_self (h.subset (by simp))
    | cons r parts =>
      rw [List.intercalate_cons_cons, List.append_assoc,
        infix_append_replicate hp hcp (hparts q List.mem_cons_self),
        ih fun t ht => hparts t (List.mem_cons_of_mem _ ht), List.dropLast_cons_cons]
      simp

end Separator
