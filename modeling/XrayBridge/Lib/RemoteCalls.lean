import XrayBridge.Lib.Dialogue

/-! Tasks that call an object over a network.  The tasks run concurrently.  Each call and each reply
is under way for as long as the network likes and may be lost, and a call may fail for its task
while the object still serves it.  Where every task makes at most one call and has its result from
the reply, the results are those of tasks that run alone, one after another, in the order in which
the object serves the calls. -/

namespace RemoteCalls

/-- An object with a state: what it may answer to a question and the state that it is in then, and
how it changes on its own. -/
structure Object (E : Type) (R : E → Type) where
  State : Type
  Answers : State → (e : E) → R e → State → Prop
  Moves : State → State → Prop

/-- The questions that a task answers itself, and the answers with which a call may fail. -/
structure Link (E : Type) (R : E → Type) where
  Local : E → Prop
  Fails : (e : E) → R e → Prop

variable {E : Type} {R : E → Type} {α ι : Type} {obj : Object E R} {link : Link E R}

/-- A task that runs alone on the object. -/
inductive Runs (obj : Object E R) (link : Link E R) :
    obj.State → Dialogue E R α → α → obj.State → Prop where
  | done (s : obj.State) (a : α) : Runs obj link s (.done a) a s
  | answer {s s' : obj.State} {e : E} {next : R e → Dialogue E R α} {a : α} (r : R e)
      (inside : link.Local e) (rest : Runs obj link s (next r) a s') :
      Runs obj link s (.ask e next) a s'
  | call {s s' s'' : obj.State} {e : E} {next : R e → Dialogue E R α} {a : α} {r : R e}
      (remote : ¬link.Local e) (answers : obj.Answers s e r s')
      (rest : Runs obj link s' (next r) a s'') : Runs obj link s (.ask e next) a s''

@[simp] theorem runs_done {s s' : obj.State} {a b : α} :
    Runs obj link s (.done a) b s' ↔ b = a ∧ s' = s := by
  constructor
  · rintro ⟨⟩
    exact ⟨rfl, rfl⟩
  · rintro ⟨rfl, rfl⟩
    exact .done s' b

theorem runs_local {s s' : obj.State} {e : E} {next : R e → Dialogue E R α} {a : α}
    (h : link.Local e) :
    Runs obj link s (.ask e next) a s' ↔ ∃ r, Runs obj link s (next r) a s' := by
  constructor
  · rintro (_ | ⟨r, -, rest⟩ | ⟨remote, -, -⟩)
    · exact ⟨r, rest⟩
    · exact absurd h remote
  · rintro ⟨r, rest⟩
    exact .answer r h rest

theorem runs_call {s s' : obj.State} {e : E} {next : R e → Dialogue E R α} {a : α}
    (h : ¬link.Local e) :
    Runs obj link s (.ask e next) a s' ↔
      ∃ r mid, obj.Answers s e r mid ∧ Runs obj link mid (next r) a s' := by
  constructor
  · rintro (_ | ⟨r, inside, -⟩ | ⟨-, answers, rest⟩)
    · exact absurd inside h
    · exact ⟨_, _, answers, rest⟩
  · rintro ⟨r, mid, answers, rest⟩
    exact .call h answers rest

/-! ### Tasks and what they are for -/

/-- What a task is for: how it acts on the object in one step, with its result, and the results that
stand for failed calls. -/
structure Spec (obj : Object E R) (α : Type) where
  Acts : obj.State → α → obj.State → Prop
  Fails : α → Prop

/-- A call does what the task is for. -/
structure Performs (obj : Object E R) (link : Link E R) (spec : Spec obj α) (e : E)
    (respond : R e → α) : Prop where
  remote : ¬link.Local e
  acts {s s' : obj.State} {r : R e} (answers : obj.Answers s e r s') : spec.Acts s (respond r) s'
  fails {r : R e} (fails : link.Fails e r) : spec.Fails (respond r)

/-- The task answers questions of its own, and then has its result or makes the one call that does
what it is for. -/
inductive Implements (obj : Object E R) (link : Link E R) (spec : Spec obj α) :
    Dialogue E R α → Prop where
  | done {a : α} (acts : ∀ s, spec.Acts s a s) : Implements obj link spec (.done a)
  | answer {e : E} {next : R e → Dialogue E R α} (inside : link.Local e)
      (rest : ∀ r, Implements obj link spec (next r)) : Implements obj link spec (.ask e next)
  | call {e : E} {respond : R e → α} (performs : Performs obj link spec e respond) :
      Implements obj link spec (.ask e fun r => .done (respond r))

theorem Implements.mono {spec spec' : Spec obj α} {m : Dialogue E R α}
    (h : Implements obj link spec m) (hacts : ∀ s a s', spec.Acts s a s' → spec'.Acts s a s')
    (hfails : ∀ a, spec.Fails a → spec'.Fails a) : Implements obj link spec' m := by
  induction h with
  | done acts => exact .done fun s => hacts _ _ _ (acts s)
  | answer inside _ ih => exact .answer inside ih
  | call performs =>
    exact .call ⟨performs.remote, fun answers => hacts _ _ _ (performs.acts answers),
      fun fails => hfails _ (performs.fails fails)⟩

/-! ### Systems -/

/-- Where the call of a task is. -/
inductive Wire (E : Type) (R : E → Type) where
  | idle
  | calling (e : E)
  | replying (e : E) (r : R e)
  | closed

/-- Something is on its way. -/
def Wire.Busy : Wire E R → Prop
  | .calling _ | .replying _ _ => True
  | .idle | .closed => False

/-- A task with its label, what remains of it, where its call is, and whether that has failed. -/
structure Task (ι E : Type) (R : E → Type) (α : Type) where
  label : ι
  rest : Dialogue E R α
  wire : Wire E R
  failed : Bool

/-- The result of a task whose call has not failed. -/
def Task.result (t : Task ι E R α) : Option α :=
  match t.failed, t.rest with
  | false, .done a => some a
  | _, _ => none

theorem Task.result_eq_some_iff {t : Task ι E R α} {a : α} :
    t.result = some a ↔ t.failed = false ∧ t.rest = .done a := by
  obtain ⟨label, rest, wire, failed⟩ := t
  cases failed <;> cases rest <;> simp [Task.result]

theorem Task.result_eq_none {t : Task ι E R α} (h : t.failed = true ∨ ∀ a, t.rest ≠ .done a) :
    t.result = none := by
  refine Option.eq_none_iff_forall_ne_some.mpr fun a ha => ?_
  obtain ⟨hfailed, hrest⟩ := Task.result_eq_some_iff.mp ha
  rcases h with hf | hr
  · rw [hfailed] at hf
    cases hf
  · exact hr a hrest

structure System (obj : Object E R) (ι α : Type) where
  tasks : List (Task ι E R α)
  state : obj.State

def System.start (s : System obj ι α) (label : ι) (rest : Dialogue E R α) : System obj ι α :=
  { s with tasks := s.tasks ++ [⟨label, rest, .idle, false⟩] }

theorem System.getElem?_start {s : System obj ι α} {label : ι} {rest : Dialogue E R α} {i : Nat}
    {t : Task ι E R α} (h : (s.start label rest).tasks[i]? = some t) :
    s.tasks[i]? = some t ∨ i = s.tasks.length ∧ t = ⟨label, rest, .idle, false⟩ := by
  rcases Nat.lt_trichotomy i s.tasks.length with hlt | rfl | hgt
  · rw [System.start, List.getElem?_append_left hlt] at h
    exact Or.inl h
  · have ht : t = ⟨label, rest, .idle, false⟩ := by simpa [System.start] using h.symm
    exact Or.inr ⟨rfl, ht⟩
  · have hlength := (List.getElem?_eq_some_iff.mp h).1
    simp only [System.start, List.length_append, List.length_singleton] at hlength
    omega

/-- A step of task `i`. -/
inductive Act (link : Link E R) (i : Nat) : System obj ι α → System obj ι α → Prop where
  | answer {s : System obj ι α} {t : Task ι E R α} {e : E} {next : R e → Dialogue E R α} (r : R e)
      (task : s.tasks[i]? = some t) (rest : t.rest = .ask e next) (inside : link.Local e) :
      Act link i s { s with tasks := s.tasks.set i { t with rest := next r } }
  | send {s : System obj ι α} {t : Task ι E R α} {e : E} {next : R e → Dialogue E R α}
      (task : s.tasks[i]? = some t) (rest : t.rest = .ask e next) (remote : ¬link.Local e)
      (wire : t.wire = .idle) :
      Act link i s { s with tasks := s.tasks.set i { t with wire := .calling e } }
  | serve {s : System obj ι α} {t : Task ι E R α} {e : E} {r : R e} {state : obj.State}
      (task : s.tasks[i]? = some t) (wire : t.wire = .calling e)
      (answers : obj.Answers s.state e r state) :
      Act link i s ⟨s.tasks.set i { t with wire := .replying e r }, state⟩
  | deliver {s : System obj ι α} {t : Task ι E R α} {e : E} {r : R e}
      {next : R e → Dialogue E R α} (task : s.tasks[i]? = some t) (wire : t.wire = .replying e r)
      (rest : t.rest = .ask e next) :
      Act link i s { s with tasks := s.tasks.set i { t with rest := next r, wire := .closed } }
  | lose {s : System obj ι α} {t : Task ι E R α} (task : s.tasks[i]? = some t)
      (busy : t.wire.Busy) :
      Act link i s { s with tasks := s.tasks.set i { t with wire := .closed } }
  | fail {s : System obj ι α} {t : Task ι E R α} {e : E} {r : R e} {next : R e → Dialogue E R α}
      (task : s.tasks[i]? = some t) (wire : t.wire ≠ .idle) (rest : t.rest = .ask e next)
      (fails : link.Fails e r) :
      Act link i s { s with tasks := s.tasks.set i { t with rest := next r, failed := true } }

/-- A step of a task that has been started, or a change of the object. -/
inductive Step (link : Link E R) (s : System obj ι α) : System obj ι α → Prop where
  | act {s' : System obj ι α} (i : Nat) (act : Act link i s s') : Step link s s'
  | move {state : obj.State} (moves : obj.Moves s.state state) : Step link s { s with state }

/-! ### Without the network -/

theorem map_set_of_eq {β : Type} (f : Task ι E R α → β) {tasks : List (Task ι E R α)} {i : Nat}
    {t t' : Task ι E R α} (task : tasks[i]? = some t) (h : f t' = f t) :
    (tasks.set i t').map f = tasks.map f := by
  obtain ⟨hi, rfl⟩ := List.getElem?_eq_some_iff.mp task
  have hmap : i < (tasks.map f).length := by rwa [List.length_map]
  rw [List.map_set, h, ← List.getElem_map (h := hmap) f, List.set_getElem_self]

/-- What a step of a task looks like where only the tasks are looked at. -/
theorem Act.visible {s s' : System obj ι α} {i : Nat} (h : Act link i s s') :
    s'.tasks.map (·.label) = s.tasks.map (·.label) ∧
      (s'.tasks.map (·.rest) = s.tasks.map (·.rest) ∨
        ∃ e next r, (s.tasks.map (·.rest))[i]? = some (.ask e next) ∧
          s'.tasks.map (·.rest) = (s.tasks.map (·.rest)).set i (next r)) := by
  have hrest {t : Task ι E R α} {m : Dialogue E R α} (task : s.tasks[i]? = some t)
      (rest : t.rest = m) : (s.tasks.map (·.rest))[i]? = some m := by
    rw [List.getElem?_map, task, Option.map_some, rest]
  cases h with
  | answer r task rest _ =>
    exact ⟨map_set_of_eq _ task rfl, Or.inr ⟨_, _, r, hrest task rest, List.map_set⟩⟩
  | send task _ _ _ | serve task _ _ | lose task _ =>
    exact ⟨map_set_of_eq _ task rfl, Or.inl (map_set_of_eq _ task rfl)⟩
  | deliver task _ rest | fail task _ rest _ =>
    exact ⟨map_set_of_eq _ task rfl, Or.inr ⟨_, _, _, hrest task rest, List.map_set⟩⟩

/-- A result stays. -/
theorem Act.result_eq_some {s s' : System obj ι α} {i j : Nat} {t : Task ι E R α} {a : α}
    (h : Act link i s s') (task : s.tasks[j]? = some t) (result : t.result = some a) :
    ∃ t', s'.tasks[j]? = some t' ∧ t'.label = t.label ∧ t'.result = some a := by
  have hset {u : Task ι E R α} (t' : Task ι E R α) (task' : s.tasks[i]? = some u)
      (h : i = j → t'.label = t.label ∧ t'.result = some a) :
      ∃ t'', (s.tasks.set i t')[j]? = some t'' ∧ t''.label = t.label ∧ t''.result = some a := by
    by_cases hij : i = j
    · subst hij
      exact ⟨t', List.getElem?_set_self (List.getElem?_eq_some_iff.mp task').1, h rfl⟩
    · rw [List.getElem?_set_ne hij]
      exact ⟨t, task, rfl, result⟩
  have hdone := Task.result_eq_some_iff.mp result
  cases h with
  | answer _ task' rest _ | deliver task' _ rest | fail task' _ rest _ =>
    refine hset _ task' fun hij => ?_
    subst hij
    rw [task] at task'
    cases task'
    rw [hdone.2] at rest
    cases rest
  | send task' _ _ _ | serve task' _ _ | lose task' _ =>
    refine hset _ task' fun hij => ?_
    subst hij
    rw [task] at task'
    cases task'
    exact ⟨rfl, result⟩

/-! ### Histories -/

/-- What the object has done for a task. -/
structure Entry (ι α : Type) where
  number : Nat
  label : ι
  result : α

/-- The entries, the latest first, are what one task after another comes to. -/
inductive Sequential (obj : Object E R) (acts : ι → obj.State → α → obj.State → Prop)
    (s₀ : obj.State) : List (Entry ι α) → obj.State → Prop where
  | nil : Sequential obj acts s₀ [] s₀
  | cons {history : List (Entry ι α)} {s s' : obj.State} (entry : Entry ι α)
      (before : Sequential obj acts s₀ history s) (act : acts entry.label s entry.result s') :
      Sequential obj acts s₀ (entry :: history) s'
  | move {history : List (Entry ι α)} {s s' : obj.State}
      (before : Sequential obj acts s₀ history s) (moves : obj.Moves s s') :
      Sequential obj acts s₀ history s'

/-- The results of the entries of a task. -/
def resultsOf (i : Nat) (history : List (Entry ι α)) : List α :=
  (history.filter (·.number = i)).map (·.result)

theorem resultsOf_cons_self (label : ι) (i : Nat) (a : α) (history : List (Entry ι α)) :
    resultsOf i (⟨i, label, a⟩ :: history) = a :: resultsOf i history := by
  simp [resultsOf]

theorem resultsOf_append_of_ne {i : Nat} {new history : List (Entry ι α)}
    (h : ∀ entry ∈ new, entry.number ≠ i) :
    resultsOf i (new ++ history) = resultsOf i history := by
  have hnil : new.filter (·.number = i) = [] := by
    rw [List.filter_eq_nil_iff]
    exact fun entry hmem => by simpa using h entry hmem
  rw [resultsOf, List.filter_append, hnil, List.nil_append, resultsOf]

theorem mem_resultsOf {i : Nat} {a : α} {history : List (Entry ι α)} :
    a ∈ resultsOf i history ↔ ∃ entry ∈ history, entry.number = i ∧ entry.result = a := by
  simp [resultsOf, and_assoc]

/-- The state of a task, with the results that the history has for it. -/
inductive Phase (obj : Object E R) (link : Link E R) (spec : Spec obj α) :
    Dialogue E R α → Wire E R → Bool → List α → Prop where
  | idle {rest : Dialogue E R α} (implements : Implements obj link spec rest) :
      Phase obj link spec rest .idle false []
  | calling {e : E} {respond : R e → α} (performs : Performs obj link spec e respond) :
      Phase obj link spec (.ask e fun r => .done (respond r)) (.calling e) false []
  | replying {e : E} {respond : R e → α} (performs : Performs obj link spec e respond) (r : R e) :
      Phase obj link spec (.ask e fun r => .done (respond r)) (.replying e r) false [respond r]
  | answered (a : α) : Phase obj link spec (.done a) .closed false [a]
  | lost {e : E} {respond : R e → α} {results : List α}
      (performs : Performs obj link spec e respond) (once : results.length ≤ 1) :
      Phase obj link spec (.ask e fun r => .done (respond r)) .closed false results
  | failedCalling {e : E} {respond : R e → α} {a : α} (performs : Performs obj link spec e respond)
      (fails : spec.Fails a) : Phase obj link spec (.done a) (.calling e) true []
  | failed {a : α} {wire : Wire E R} {results : List α} (fails : spec.Fails a)
      (notIdle : wire ≠ .idle) (notCalling : ∀ e, wire ≠ .calling e) (once : results.length ≤ 1) :
      Phase obj link spec (.done a) wire true results

section Phase

variable {spec : Spec obj α} {rest : Dialogue E R α} {wire : Wire E R} {failed : Bool}
  {results : List α} {e : E} {next : R e → Dialogue E R α}

theorem Phase.once (h : Phase obj link spec rest wire failed results) : results.length ≤ 1 := by
  cases h with
  | lost _ once | failed _ _ _ once => exact once
  | idle _ | calling _ | failedCalling _ _ => exact Nat.zero_le 1
  | replying _ _ | answered _ => exact Nat.le_refl 1

theorem Phase.answer (h : Phase obj link spec (.ask e next) wire failed results)
    (inside : link.Local e) (r : R e) : Phase obj link spec (next r) wire failed results := by
  cases h with
  | idle implements =>
    cases implements with
    | answer _ rest => exact .idle (rest r)
    | call performs => exact absurd inside performs.remote
  | calling performs | replying performs _ | lost performs _ => exact absurd inside performs.remote

theorem Phase.send (h : Phase obj link spec (.ask e next) .idle failed results)
    (remote : ¬link.Local e) : Phase obj link spec (.ask e next) (.calling e) failed results := by
  cases h with
  | idle implements =>
    cases implements with
    | answer inside _ => exact absurd inside remote
    | call performs => exact .calling performs

/-- What the object does for a call that it serves is what the task is for. -/
theorem Phase.serve (h : Phase obj link spec rest (.calling e) failed results) {r : R e}
    {s s' : obj.State} (answers : obj.Answers s e r s') :
    (failed = true ∨ ∀ a, rest ≠ .done a) ∧
      ∃ a, spec.Acts s a s' ∧ Phase obj link spec rest (.replying e r) failed (a :: results) := by
  cases h with
  | calling performs => exact ⟨Or.inr nofun, _, performs.acts answers, .replying performs r⟩
  | failedCalling performs fails =>
    exact ⟨Or.inl rfl, _, performs.acts answers, .failed fails nofun nofun (Nat.le_refl 1)⟩
  | failed _ _ notCalling _ => exact absurd rfl (notCalling e)

theorem Phase.deliver {r : R e}
    (h : Phase obj link spec (.ask e next) (.replying e r) failed results) :
    Phase obj link spec (next r) .closed failed results := by
  cases h with
  | replying performs r => exact .answered _

theorem Phase.lose (h : Phase obj link spec rest wire failed results) (busy : wire.Busy) :
    Phase obj link spec rest .closed failed results := by
  cases h with
  | idle _ => exact busy.elim
  | calling performs => exact .lost performs (Nat.zero_le 1)
  | replying performs r => exact .lost performs (Nat.le_refl 1)
  | answered a => exact .answered a
  | lost performs once => exact .lost performs once
  | failedCalling performs fails => exact .failed fails nofun nofun (Nat.zero_le 1)
  | failed fails _ _ once => exact .failed fails nofun nofun once

theorem Phase.fail (h : Phase obj link spec (.ask e next) wire failed results)
    (notIdle : wire ≠ .idle) {r : R e} (fails : link.Fails e r) :
    Phase obj link spec (next r) wire true results := by
  cases h with
  | idle _ => exact absurd rfl notIdle
  | calling performs => exact .failedCalling performs (performs.fails fails)
  | replying performs r => exact .failed (performs.fails fails) nofun nofun (Nat.le_refl 1)
  | lost performs once => exact .failed (performs.fails fails) nofun nofun once

end Phase

/-- A history that explains the state of a system. -/
structure Explains (link : Link E R) (spec : ι → Spec obj α) (s₀ : obj.State)
    (history : List (Entry ι α)) (s : System obj ι α) : Prop where
  sequential : Sequential obj (fun label => (spec label).Acts) s₀ history s.state
  phase {i : Nat} {t : Task ι E R α} (task : s.tasks[i]? = some t) :
    Phase obj link (spec t.label) t.rest t.wire t.failed (resultsOf i history)
  entries {entry : Entry ι α} (mem : entry ∈ history) :
    ∃ t, s.tasks[entry.number]? = some t ∧ t.label = entry.label

section Explains

variable {spec : ι → Spec obj α} {s₀ : obj.State} {history : List (Entry ι α)}
  {s s' : System obj ι α}

theorem Explains.start (link : Link E R) (spec : ι → Spec obj α) (s₀ : obj.State) :
    Explains link spec s₀ [] (⟨[], s₀⟩ : System obj ι α) where
  sequential := .nil
  phase h := by cases h
  entries h := by cases h

theorem Explains.resultsOf_eq_nil (h : Explains link spec s₀ history s) {i : Nat}
    (hi : s.tasks.length ≤ i) : resultsOf i history = [] := by
  refine List.eq_nil_iff_forall_not_mem.mpr fun a ha => ?_
  obtain ⟨entry, hentry, hnumber, -⟩ := mem_resultsOf.mp ha
  obtain ⟨t, htask, -⟩ := h.entries hentry
  exact absurd (List.getElem?_eq_some_iff.mp htask).1 (by omega)

/-- A new task that does what its label stands for. -/
theorem Explains.begin (h : Explains link spec s₀ history s) {label : ι} {rest : Dialogue E R α}
    (implements : Implements obj link (spec label) rest) :
    Explains link spec s₀ history (s.start label rest) where
  sequential := h.sequential
  phase {i t} task := by
    rcases System.getElem?_start task with task | ⟨rfl, rfl⟩
    · exact h.phase task
    · rw [h.resultsOf_eq_nil (Nat.le_refl _)]
      exact .idle implements
  entries {entry} mem := by
    obtain ⟨t, htask, hlabel⟩ := h.entries mem
    refine ⟨t, ?_, hlabel⟩
    rw [System.start, List.getElem?_append_left (List.getElem?_eq_some_iff.mp htask).1]
    exact htask

/-- A step of task `i`, with what the object has done for it in the step. -/
theorem Explains.update (h : Explains link spec s₀ history s) {i : Nat} {t t' : Task ι E R α}
    {state : obj.State} (new : List (Entry ι α)) (task : s.tasks[i]? = some t)
    (label : t'.label = t.label) (mine : ∀ entry ∈ new, entry.number = i ∧ entry.label = t.label)
    (sequential : Sequential obj (fun label => (spec label).Acts) s₀ (new ++ history) state)
    (phase : Phase obj link (spec t.label) t'.rest t'.wire t'.failed
      (resultsOf i (new ++ history))) :
    Explains link spec s₀ (new ++ history) ⟨s.tasks.set i t', state⟩ where
  sequential := sequential
  phase {j u} other := by
    have hi := (List.getElem?_eq_some_iff.mp task).1
    by_cases hij : i = j
    · subst hij
      rw [List.getElem?_set_self hi] at other
      cases other
      rwa [label]
    · rw [List.getElem?_set_ne hij] at other
      rw [resultsOf_append_of_ne fun entry hmem => (mine entry hmem).1 ▸ hij]
      exact h.phase other
  entries {entry} mem := by
    have hi := (List.getElem?_eq_some_iff.mp task).1
    rcases List.mem_append.mp mem with hnew | hold
    · obtain ⟨hnumber, hlabel⟩ := mine entry hnew
      rw [hnumber, hlabel]
      exact ⟨t', List.getElem?_set_self hi, label⟩
    · obtain ⟨u, hu, hlabel⟩ := h.entries hold
      by_cases hij : i = entry.number
      · subst hij
        cases task.symm.trans hu
        exact ⟨t', List.getElem?_set_self hi, label.trans hlabel⟩
      · refine ⟨u, ?_, hlabel⟩
        rw [List.getElem?_set_ne hij]
        exact hu

/-- A step in which the object does nothing for task `i`. -/
theorem Explains.quiet (h : Explains link spec s₀ history s) {i : Nat} {t t' : Task ι E R α}
    (task : s.tasks[i]? = some t) (label : t'.label = t.label)
    (phase : Phase obj link (spec t.label) t'.rest t'.wire t'.failed (resultsOf i history)) :
    Explains link spec s₀ history { s with tasks := s.tasks.set i t' } :=
  h.update [] task label (fun _ hmem => by cases hmem) h.sequential phase

/-- A step in which the object serves the call of task `i`. -/
theorem Explains.act (h : Explains link spec s₀ history s) {i : Nat} {t t' : Task ι E R α}
    {state : obj.State} {a : α} (task : s.tasks[i]? = some t) (label : t'.label = t.label)
    (acts : (spec t.label).Acts s.state a state)
    (phase : Phase obj link (spec t.label) t'.rest t'.wire t'.failed
      (a :: resultsOf i history)) :
    Explains link spec s₀ (⟨i, t.label, a⟩ :: history) ⟨s.tasks.set i t', state⟩ := by
  refine h.update [⟨i, t.label, a⟩] task label ?_ (.cons _ h.sequential acts) ?_
  · intro entry hmem
    cases List.mem_singleton.mp hmem
    exact ⟨rfl, rfl⟩
  · rw [List.singleton_append, resultsOf_cons_self]
    exact phase

/-- A step adds what the object does in it, and it does nothing for a task that has its result. -/
theorem Explains.act_step (h : Explains link spec s₀ history s) {i : Nat} (hact : Act link i s s') :
    ∃ new, Explains link spec s₀ (new ++ history) s' ∧
      ∀ entry ∈ new, ∃ t, s.tasks[entry.number]? = some t ∧ t.result = none := by
  have quiet {t : System obj ι α} (ht : Explains link spec s₀ history t) :
      ∃ new, Explains link spec s₀ (new ++ history) t ∧
        ∀ entry ∈ new, ∃ t, s.tasks[entry.number]? = some t ∧ t.result = none :=
    ⟨[], ht, fun _ hmem => by cases hmem⟩
  cases hact with
  | answer r task rest inside =>
    exact quiet (h.quiet task rfl ((rest ▸ h.phase task).answer inside r))
  | send task rest remote wire =>
    have hphase := h.phase task
    rw [rest, wire] at hphase
    exact quiet (h.quiet task rfl (rest ▸ hphase.send remote))
  | @serve t e r state task wire answers =>
    have hphase := h.phase task
    rw [wire] at hphase
    obtain ⟨hopen, a, hacts, hphase⟩ := hphase.serve answers
    refine ⟨[⟨i, t.label, a⟩], h.act task rfl hacts hphase, fun entry hmem => ?_⟩
    cases List.mem_singleton.mp hmem
    exact ⟨t, task, Task.result_eq_none hopen⟩
  | deliver task wire rest =>
    have hphase := h.phase task
    rw [rest, wire] at hphase
    exact quiet (h.quiet task rfl hphase.deliver)
  | lose task busy => exact quiet (h.quiet task rfl ((h.phase task).lose busy))
  | fail task wire rest fails =>
    exact quiet (h.quiet task rfl ((rest ▸ h.phase task).fail wire fails))

theorem Explains.step (h : Explains link spec s₀ history s) (hstep : Step link s s') :
    ∃ new, Explains link spec s₀ (new ++ history) s' ∧
      ∀ entry ∈ new, ∃ t, s.tasks[entry.number]? = some t ∧ t.result = none := by
  cases hstep with
  | act i act => exact h.act_step act
  | move moves =>
    exact ⟨[], ⟨.move h.sequential moves, h.phase, h.entries⟩, fun _ hmem => by cases hmem⟩

/-- A task that has its result has it from the object, or does nothing. -/
theorem Explains.answered (h : Explains link spec s₀ history s) {i : Nat} {t : Task ι E R α} {a : α}
    (task : s.tasks[i]? = some t) (result : t.result = some a) :
    resultsOf i history = [a] ∨
      resultsOf i history = [] ∧ ∀ state, (spec t.label).Acts state a state := by
  have hphase := h.phase task
  obtain ⟨hfailed, hrest⟩ := Task.result_eq_some_iff.mp result
  rw [hrest, hfailed] at hphase
  generalize t.wire = wire at hphase
  generalize resultsOf i history = results at hphase ⊢
  cases hphase with
  | idle implements =>
    cases implements with
    | done acts => exact Or.inr ⟨rfl, acts⟩
  | answered => exact Or.inl rfl

theorem Explains.fails (h : Explains link spec s₀ history s) {i : Nat} {t : Task ι E R α}
    (task : s.tasks[i]? = some t) (failed : t.failed = true) :
    ∃ a, t.rest = .done a ∧ (spec t.label).Fails a := by
  have hphase := h.phase task
  rw [failed] at hphase
  generalize resultsOf i history = results, t.wire = wire at hphase
  generalize t.rest = rest at hphase ⊢
  cases hphase with
  | failedCalling _ fails | failed fails _ _ _ => exact ⟨_, rfl, fails⟩

theorem length_resultsOf (i : Nat) (history : List (Entry ι α)) :
    (resultsOf i history).length = (history.map (·.number)).count i := by
  rw [resultsOf, List.length_map, List.count, List.countP_map, List.countP_eq_length_filter]
  congr 1

theorem Explains.once (h : Explains link spec s₀ history s) : (history.map (·.number)).Nodup := by
  rw [List.nodup_iff_count]
  intro i
  rw [← length_resultsOf]
  by_cases hi : i < s.tasks.length
  · exact (h.phase (List.getElem?_eq_getElem hi)).once
  · simp [h.resultsOf_eq_nil (Nat.le_of_not_lt hi)]

end Explains

end RemoteCalls
