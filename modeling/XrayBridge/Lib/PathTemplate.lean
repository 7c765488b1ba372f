/-! Path templates of a router: sequences of fixed segments, parameters for one segment, and a
final parameter for the rest of the path.  `capture` says which paths a template matches and what
its parameters hold, and `Preferred` orders two templates that match the same path. -/

namespace PathTemplate

inductive Segment where
  | fixed (text : String)
  | param (name : String)
  | rest (name : String)
  deriving DecidableEq

abbrev Template := List Segment

abbrev Captures := List (String × String)

def segments (path : String) : List String := (path.toList.splitOn '/').map String.ofList

/-- The path whose segments after the leading slash are `parts`. -/
def joined (parts : List String) : String := String.intercalate "/" parts

/-- What the parameters of a template hold at the segments of a path that it matches.  A parameter
never holds the empty string. -/
def capture : Template → List String → Option Captures
  | [], [] => some []
  | .fixed text :: template, part :: parts => if part = text then capture template parts else none
  | .param name :: template, part :: parts =>
    if part = "" then none else (capture template parts).map ((name, part) :: ·)
  | [.rest name], part :: parts =>
    if joined (part :: parts) = "" then none else some [(name, joined (part :: parts))]
  | _, _ => none

/-- The place of a kind of segment in the order of preference. -/
def Segment.rank : Segment → Nat
  | .fixed _ => 0
  | .param _ => 1
  | .rest _ => 2

/-- At the first segment whose kinds differ, `a` has the kind that comes first: a fixed segment
before a parameter and a parameter before the rest. -/
def Preferred : Template → Template → Prop
  | a :: as, b :: bs => a.rank < b.rank ∨ (a.rank = b.rank ∧ Preferred as bs)
  | _, _ => False

instance Preferred.decidable : (a b : Template) → Decidable (Preferred a b)
  | a :: as, b :: bs =>
    have := Preferred.decidable as bs
    inferInstanceAs (Decidable (a.rank < b.rank ∨ (a.rank = b.rank ∧ Preferred as bs)))
  | [], _ => inferInstanceAs (Decidable False)
  | _ :: _, [] => inferInstanceAs (Decidable False)

/-! ### Segments of a path -/

theorem segments_append (a b : String) : segments (a ++ "/" ++ b) = segments a ++ segments b := by
  have htext : (a ++ "/" ++ b).toList = a.toList ++ '/' :: b.toList := by simp
  rw [segments, htext, List.splitOn, List.splitOnP_append_cons _ _ (by simp), List.map_append]
  rfl

theorem segments_of_notMem {path : String} (h : '/' ∉ path.toList) : segments path = [path] := by
  have hall : ∀ c ∈ path.toList, (c == '/') = false := by
    intro c hc
    rw [beq_eq_false_iff_ne]
    exact fun e => h (e ▸ hc)
  rw [segments, List.splitOn, List.splitOnP_eq_singleton hall, List.map_singleton,
    String.ofList_toList]

theorem segments_ne_nil (path : String) : segments path ≠ [] := by
  rw [segments, ne_eq, List.map_eq_nil_iff]
  exact List.splitOnP_ne_nil _ _

theorem joined_segments (path : String) : joined (segments path) = path := by
  apply String.toList_inj.mp
  rw [joined, segments, String.toList_intercalate, List.map_map]
  have hid : String.toList ∘ String.ofList = id := funext fun l => String.toList_ofList
  rw [hid, List.map_id]
  exact List.intercalate_splitOn '/'

theorem segments_injective : Function.Injective segments :=
  Function.LeftInverse.injective joined_segments

theorem notMem_of_mem_splitOn {c : Char} {l : List Char} {part : List Char}
    (h : part ∈ l.splitOn c) : c ∉ part := by
  induction l generalizing part with
  | nil =>
    rw [List.splitOn_nil, List.mem_singleton] at h
    rw [h]
    exact List.not_mem_nil
  | cons a l ih =>
    rw [List.splitOn_cons_eq_if_modifyHead] at h
    split at h
    · rcases List.mem_cons.mp h with rfl | h
      · exact List.not_mem_nil
      · exact ih h
    · rename_i hne
      obtain ⟨first, rest, hsplit⟩ := List.exists_cons_of_ne_nil (List.splitOn_ne_nil c l)
      rw [hsplit, List.modifyHead_cons] at h
      rw [hsplit] at ih
      rcases List.mem_cons.mp h with rfl | h
      · rw [List.mem_cons, not_or]
        refine ⟨?_, ih List.mem_cons_self⟩
        rintro rfl
        exact hne (by simp)
      · exact ih (List.mem_cons_of_mem _ h)

theorem notMem_of_mem_segments {path part : String} (h : part ∈ segments path) :
    '/' ∉ part.toList := by
  obtain ⟨chars, hchars, rfl⟩ := List.mem_map.mp h
  rw [String.toList_ofList]
  exact notMem_of_mem_splitOn hchars

theorem segments_joined {parts : List String} (hne : parts ≠ [])
    (h : ∀ part ∈ parts, '/' ∉ part.toList) : segments (joined parts) = parts := by
  have hsplit : (joined parts).toList.splitOn '/' = parts.map String.toList := by
    rw [joined, String.toList_intercalate]
    refine List.splitOn_intercalate '/' ?_ (by simpa using hne)
    intro chars hchars
    obtain ⟨part, hpart, rfl⟩ := List.mem_map.mp hchars
    exact h part hpart
  rw [segments, hsplit, List.map_map]
  exact (List.map_congr_left fun part _ => String.ofList_toList).trans (List.map_id parts)

/-- The rest of a path after a base. -/
theorem segments_eq_append_iff {path base : String} {rest : List String} (hne : rest ≠ []) :
    segments path = segments base ++ rest ↔
      path = base ++ "/" ++ joined rest ∧ segments (joined rest) = rest := by
  constructor
  · intro h
    have hrest : segments (joined rest) = rest := by
      refine segments_joined hne fun part hpart => ?_
      have hmem : part ∈ segments path := by
        rw [h]
        exact List.mem_append_right _ hpart
      exact notMem_of_mem_segments hmem
    refine ⟨segments_injective ?_, hrest⟩
    rw [segments_append, hrest, h]
  · rintro ⟨rfl, hrest⟩
    rw [segments_append, hrest]

/-! ### Fixed segments -/

theorem capture_fixed_append (parts : List String) (t : Template) (rest : List String) :
    capture (parts.map .fixed ++ t) (parts ++ rest) = capture t rest := by
  induction parts with
  | nil => rfl
  | cons part parts ih => rw [List.map_cons, List.cons_append, List.cons_append, capture,
      if_pos rfl, ih]

theorem capture_fixed (parts : List String) : capture (parts.map .fixed) parts = some [] := by
  have h := capture_fixed_append parts [] []
  rwa [List.append_nil, List.append_nil] at h

/-- A template of fixed segments is preferred to every other one that matches the same path. -/
theorem preferred_of_fixed {parts : List String} {t : Template}
    (h : (capture t parts).isSome) (hne : t ≠ parts.map .fixed) :
    Preferred (parts.map .fixed) t := by
  induction parts generalizing t with
  | nil =>
    cases t with
    | nil => exact absurd rfl hne
    | cons segment t => simp [capture] at h
  | cons part parts ih =>
    match t, h, hne with
    | .fixed text :: t, h, hne =>
      rw [capture] at h
      split at h
      · rename_i heq
        subst heq
        exact Or.inr ⟨rfl, ih h fun e => hne (by rw [e, List.map_cons])⟩
      · cases h
    | .param name :: t, _, _ => exact Or.inl Nat.zero_lt_one
    | .rest name :: t, _, _ => exact Or.inl Nat.zero_lt_two

/-! ### Paths that a template matches -/

theorem capture_append_iff {parts segs : List String} {t : Template} {captures : Captures} :
    capture (parts.map .fixed ++ t) segs = some captures ↔
      ∃ rest, segs = parts ++ rest ∧ capture t rest = some captures := by
  constructor
  · intro h
    induction parts generalizing segs with
    | nil => exact ⟨segs, rfl, h⟩
    | cons part parts ih =>
      cases segs with
      | nil => simp [capture] at h
      | cons seg segs =>
        rw [List.map_cons, List.cons_append, capture] at h
        split at h
        · rename_i heq
          obtain ⟨rest, rfl, hrest⟩ := ih h
          exact ⟨rest, by rw [heq, List.cons_append], hrest⟩
        · cases h
  · rintro ⟨rest, rfl, hrest⟩
    rw [capture_fixed_append, hrest]

theorem capture_nil_iff {segs : List String} {captures : Captures} :
    capture [] segs = some captures ↔ segs = [] ∧ captures = [] := by
  cases segs with
  | nil => simp [capture, eq_comm]
  | cons seg segs => simp [capture]

theorem capture_param_iff {name : String} {segs : List String} {captures : Captures} :
    capture [.param name] segs = some captures ↔
      ∃ raw, segs = [raw] ∧ raw ≠ "" ∧ captures = [(name, raw)] := by
  constructor
  · intro h
    cases segs with
    | nil => simp [capture] at h
    | cons seg segs =>
      rw [capture] at h
      split at h
      · cases h
      · rename_i hseg
        obtain ⟨rest, hrest, rfl⟩ := Option.map_eq_some_iff.mp h
        obtain ⟨rfl, rfl⟩ := capture_nil_iff.mp hrest
        exact ⟨seg, rfl, hseg, rfl⟩
  · rintro ⟨raw, rfl, hraw, rfl⟩
    simp [capture, hraw]

theorem capture_rest_iff {name : String} {segs : List String} {captures : Captures} :
    capture [.rest name] segs = some captures ↔
      segs ≠ [] ∧ joined segs ≠ "" ∧ captures = [(name, joined segs)] := by
  cases segs with
  | nil => simp [capture]
  | cons seg segs =>
    rw [capture]
    split
    · simp_all
    · rename_i hne
      simp only [Option.some.injEq, ne_eq, reduceCtorEq, not_false_eq_true, hne, true_and]
      exact eq_comm

theorem eq_of_capture_fixed {base path : String}
    (h : (capture ((segments base).map .fixed) (segments path)).isSome) : path = base := by
  obtain ⟨captures, hcapture⟩ := Option.isSome_iff_exists.mp h
  rw [← List.append_nil ((segments base).map Segment.fixed), capture_append_iff] at hcapture
  obtain ⟨rest, hsegments, hrest⟩ := hcapture
  obtain ⟨rfl, -⟩ := capture_nil_iff.mp hrest
  rw [List.append_nil] at hsegments
  exact segments_injective hsegments

/-! ### Tables without ambiguity -/

/-- Whether one path may match both templates. -/
def Overlaps : Template → Template → Bool
  | [], [] => true
  | .fixed a :: s, .fixed b :: t => a = b && Overlaps s t
  | .fixed a :: s, .param _ :: t => a ≠ "" && Overlaps s t
  | .param _ :: s, .fixed b :: t => b ≠ "" && Overlaps s t
  | .param _ :: s, .param _ :: t => Overlaps s t
  | .rest _ :: _, _ :: _ => true
  | _ :: _, .rest _ :: _ => true
  | _, _ => false

theorem isSome_capture_fixed {text part : String} {t : Template} {parts : List String} :
    (capture (.fixed text :: t) (part :: parts)).isSome ↔
      part = text ∧ (capture t parts).isSome := by
  rw [capture]
  split <;> simp_all

theorem isSome_capture_param {name part : String} {t : Template} {parts : List String} :
    (capture (.param name :: t) (part :: parts)).isSome ↔
      part ≠ "" ∧ (capture t parts).isSome := by
  rw [capture]
  split <;> simp_all

theorem overlaps_of_capture {s t : Template} {parts : List String}
    (hs : (capture s parts).isSome) (ht : (capture t parts).isSome) : Overlaps s t = true := by
  induction parts generalizing s t with
  | nil =>
    cases s with
    | nil =>
      cases t with
      | nil => rfl
      | cons b t => simp [capture] at ht
    | cons a s => simp [capture] at hs
  | cons part parts ih =>
    cases s with
    | nil => simp [capture] at hs
    | cons a s =>
      cases t with
      | nil => simp [capture] at ht
      | cons b t =>
        cases a with
        | fixed text =>
          obtain ⟨rfl, hs'⟩ := isSome_capture_fixed.mp hs
          cases b with
          | fixed text =>
            obtain ⟨rfl, ht'⟩ := isSome_capture_fixed.mp ht
            simp [Overlaps, ih hs' ht']
          | param name =>
            obtain ⟨hpart', ht'⟩ := isSome_capture_param.mp ht
            simp [Overlaps, hpart', ih hs' ht']
          | rest name => rfl
        | param name =>
          obtain ⟨hpart, hs'⟩ := isSome_capture_param.mp hs
          cases b with
          | fixed text =>
            obtain ⟨rfl, ht'⟩ := isSome_capture_fixed.mp ht
            simp [Overlaps, hpart, ih hs' ht']
          | param name' =>
            obtain ⟨-, ht'⟩ := isSome_capture_param.mp ht
            simp [Overlaps, ih hs' ht']
          | rest name' => rfl
        | rest name => cases b <;> rfl

/-- Of two templates of the table that one path may match, one is preferred to the other. -/
def Unambiguous (table : List Template) : Prop :=
  ∀ s ∈ table, ∀ t ∈ table, Overlaps s t = true → s = t ∨ Preferred s t ∨ Preferred t s

instance (table : List Template) : Decidable (Unambiguous table) :=
  inferInstanceAs (Decidable (∀ s ∈ table, ∀ t ∈ table, _))

end PathTemplate
