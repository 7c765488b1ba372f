import Mathlib.Data.List.TakeWhile
import Mathlib.Data.List.Infix

/-! The authority of a URI, after `scheme://`: where it ends, which part of it names the host, and
for which texts `d` the authority `d:digits` names the host `d`. -/

namespace UriAuthority

/-- The characters that end an authority. -/
def endsAuthority (c : Char) : Bool := c == '/' || c == '?' || c == '#'

def authority (l : List Char) : List Char := l.takeWhile fun c => !endsAuthority c

/-- An authority without its user information, which the last `@` ends. -/
def afterUserInfo (l : List Char) : List Char := (l.reverse.takeWhile (· ≠ '@')).reverse

/-- The host of an authority without user information: a literal in brackets, or what stands
before the first colon. -/
def host : List Char → List Char
  | '[' :: l => '[' :: l.takeWhile (· ≠ ']') ++ if ']' ∈ l then [']'] else []
  | l => l.takeWhile (· ≠ ':')

/-- The host that the text after `scheme://` names. -/
def hostOf (l : List Char) : List Char := host (afterUserInfo (authority l))

/-- A text that can stand for a host in full: one literal in brackets, or a text without colons. -/
def isHost : List Char → Bool
  | '[' :: l => l.getLast? == some ']' && !l.dropLast.contains ']'
  | l => !l.contains ':'

/-- `isHost`, without a character that ends the authority or the user information. -/
def isPlainHost (l : List Char) : Bool :=
  l.all (fun c => !endsAuthority c && c != '@') && isHost l

theorem takeWhile_ne_of_notMem {c : Char} {l : List Char} (h : c ∉ l) :
    l.takeWhile (· ≠ c) = l := by
  rw [List.takeWhile_eq_self_iff]
  intro x hx
  have : x ≠ c := fun e => h (e ▸ hx)
  simpa using this

theorem takeWhile_ne_append_cons {c : Char} {l r : List Char} (h : c ∉ l) :
    (l ++ c :: r).takeWhile (· ≠ c) = l := by
  rw [List.takeWhile_append_of_pos (fun x hx => by
    have : x ≠ c := fun e => h (e ▸ hx)
    simpa using this)]
  simp

theorem authority_of_all {l : List Char} (h : ∀ c ∈ l, endsAuthority c = false) :
    authority l = l := by
  rw [authority, List.takeWhile_eq_self_iff]
  intro c hc
  simp [h c hc]

theorem not_endsAuthority_of_mem {l : List Char} {c : Char} (h : c ∈ authority l) :
    endsAuthority c = false := by
  simpa using List.mem_takeWhile_imp h

theorem afterUserInfo_of_notMem {l : List Char} (h : '@' ∉ l) : afterUserInfo l = l := by
  rw [afterUserInfo, takeWhile_ne_of_notMem fun hmem => h (List.mem_reverse.mp hmem),
    List.reverse_reverse]

theorem mem_afterUserInfo {l : List Char} {c : Char} (h : c ∈ afterUserInfo l) :
    c ∈ l ∧ c ≠ '@' := by
  rw [afterUserInfo, List.mem_reverse] at h
  exact ⟨List.mem_reverse.mp ((List.takeWhile_prefix _).subset h),
    by simpa using List.mem_takeWhile_imp h⟩

theorem mem_host {l : List Char} {c : Char} (h : c ∈ host l) : c ∈ l := by
  unfold host at h
  split at h
  · rename_i l
    rcases List.mem_append.mp h with h | h
    · rcases List.mem_cons.mp h with rfl | h
      · simp
      · exact List.mem_cons_of_mem _ ((List.takeWhile_prefix _).subset h)
    · split at h
      · rename_i hmem
        rw [List.mem_singleton.mp h]
        exact List.mem_cons_of_mem _ hmem
      · simp at h
  · exact (List.takeWhile_prefix _).subset h

theorem mem_hostOf {l : List Char} {c : Char} (h : c ∈ hostOf l) :
    endsAuthority c = false ∧ c ≠ '@' := by
  obtain ⟨hmem, hat⟩ := mem_afterUserInfo (mem_host h)
  exact ⟨not_endsAuthority_of_mem hmem, hat⟩

/-- A literal is closed by its last character exactly when its only closing bracket is there. -/
theorem closed_iff {l : List Char} :
    (l.getLast? == some ']' && !l.dropLast.contains ']') = true ↔
      ∃ literal, l = literal ++ [']'] ∧ ']' ∉ literal := by
  simp only [Bool.and_eq_true, beq_iff_eq, Bool.not_eq_true', List.contains_eq_mem,
    decide_eq_false_iff_not]
  constructor
  · rintro ⟨hlast, hnot⟩
    exact ⟨l.dropLast, (List.dropLast_append_getLast? _ hlast).symm, hnot⟩
  · rintro ⟨literal, rfl, hnot⟩
    simpa using hnot

theorem host_literal_append_colon {l digits : List Char} (hdigits : ']' ∉ digits) :
    host ('[' :: l ++ ':' :: digits) = '[' :: l ↔ isHost ('[' :: l) = true := by
  simp only [host, isHost, List.cons_append, List.cons.injEq, true_and]
  rw [closed_iff]
  by_cases hmem : ']' ∈ l
  · obtain ⟨literal, rest, rfl, hliteral⟩ := List.eq_append_cons_of_mem hmem
    rw [List.append_assoc, List.cons_append, takeWhile_ne_append_cons hliteral, if_pos (by simp)]
    constructor
    · intro h
      exact ⟨literal, h.symm, hliteral⟩
    · rintro ⟨literal', h, hliteral'⟩
      have htake := congrArg (List.takeWhile (· ≠ ']')) h
      rw [takeWhile_ne_append_cons hliteral, takeWhile_ne_append_cons hliteral'] at htake
      rw [h, htake]
  · have hno : ']' ∉ l ++ ':' :: digits := by simp [hmem, hdigits]
    rw [if_neg hno, takeWhile_ne_of_notMem hno]
    refine iff_of_false (by simp) ?_
    rintro ⟨literal, rfl, -⟩
    simp at hmem

theorem host_name_append_colon {c : Char} {l digits : List Char} (hc : c ≠ '[') :
    host (c :: l ++ ':' :: digits) = c :: l ↔ isHost (c :: l) = true := by
  have hhost (r : List Char) : host (c :: r) = (c :: r).takeWhile (· ≠ ':') := by
    unfold host
    split
    · simp_all
    · rfl
  have hisHost : isHost (c :: l) = !(c :: l).contains ':' := by
    unfold isHost
    split
    · simp_all
    · rfl
  rw [List.cons_append, hhost, hisHost, ← List.cons_append]
  by_cases hmem : ':' ∈ c :: l
  · obtain ⟨pre, post, hsplit, hpre⟩ := List.eq_append_cons_of_mem hmem
    rw [hsplit, List.append_assoc, List.cons_append, takeWhile_ne_append_cons hpre]
    simp
  · rw [takeWhile_ne_append_cons hmem]
    simpa using hmem

/-- Before a colon and a text without brackets, exactly the texts that `isHost` accepts are read
back as the host. -/
theorem host_append_colon {d digits : List Char} (hdigits : ']' ∉ digits) :
    host (d ++ ':' :: digits) = d ↔ isHost d = true := by
  cases d with
  | nil => simp [host, isHost]
  | cons c l =>
    by_cases hc : c = '['
    · subst hc
      exact host_literal_append_colon hdigits
    · exact host_name_append_colon hc

theorem isPlainHost_iff {d : List Char} : isPlainHost d = true ↔
    (∀ c ∈ d, endsAuthority c = false ∧ c ≠ '@') ∧ isHost d = true := by
  rw [isPlainHost, Bool.and_eq_true, List.all_eq_true]
  refine and_congr_left fun _ => forall₂_congr fun c _ => ?_
  rw [Bool.and_eq_true, Bool.not_eq_true', bne_iff_ne]

theorem afterUserInfo_append_colon {d digits : List Char}
    (hdigits : ∀ c ∈ digits, endsAuthority c = false ∧ c ≠ '@')
    (hd : ∀ c ∈ d, endsAuthority c = false ∧ c ≠ '@') :
    afterUserInfo (authority (d ++ ':' :: digits)) = d ++ ':' :: digits := by
  have hall : ∀ c ∈ d ++ ':' :: digits, endsAuthority c = false ∧ c ≠ '@' := by
    intro c hc
    rcases List.mem_append.mp hc with hc | hc
    · exact hd c hc
    · rcases List.mem_cons.mp hc with rfl | hc
      · decide
      · exact hdigits c hc
  rw [authority_of_all fun c hc => (hall c hc).1,
    afterUserInfo_of_notMem fun h => (hall _ h).2 rfl]

/-- The text `d:digits` names the host `d` exactly when `d` is a plain host. -/
theorem hostOf_append_colon {d digits : List Char}
    (hdigits : ∀ c ∈ digits, endsAuthority c = false ∧ c ≠ '@' ∧ c ≠ ']') :
    hostOf (d ++ ':' :: digits) = d ↔ isPlainHost d = true := by
  rw [isPlainHost_iff]
  constructor
  · intro h
    have hd : ∀ c ∈ d, endsAuthority c = false ∧ c ≠ '@' := by
      intro c hc
      rw [← h] at hc
      exact mem_hostOf hc
    refine ⟨hd, ?_⟩
    rw [hostOf, afterUserInfo_append_colon (fun c hc => ⟨(hdigits c hc).1, (hdigits c hc).2.1⟩) hd]
      at h
    exact (host_append_colon fun h => (hdigits _ h).2.2 rfl).mp h
  · rintro ⟨hd, hhost⟩
    rw [hostOf, afterUserInfo_append_colon (fun c hc => ⟨(hdigits c hc).1, (hdigits c hc).2.1⟩) hd]
    exact (host_append_colon fun h => (hdigits _ h).2.2 rfl).mpr hhost

end UriAuthority
