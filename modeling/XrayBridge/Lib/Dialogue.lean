/-! Programs that ask questions of their environment: a tree whose leaves hold results and whose
other nodes hold a question with a continuation for each answer.  `Asks` and `Returns` say what a
program may do over all answers, and `Within` bounds the questions of every run. -/

/-- A program that asks questions `e : E`, takes answers in `R e` and ends with an `α`. -/
inductive Dialogue (E : Type) (R : E → Type) (α : Type) where
  | done (value : α)
  | ask (e : E) (next : R e → Dialogue E R α)

namespace Dialogue

variable {E : Type} {R : E → Type} {α β : Type}

def bind (m : Dialogue E R α) (f : α → Dialogue E R β) : Dialogue E R β :=
  match m with
  | done a => f a
  | ask e next => ask e fun r => (next r).bind f

instance : Monad (Dialogue E R) where
  pure := done
  bind := bind

@[simp] theorem pure_eq (a : α) : (pure a : Dialogue E R α) = done a := rfl

@[simp] theorem done_bind (a : α) (f : α → Dialogue E R β) : done a >>= f = f a := rfl

@[simp] theorem ask_bind (e : E) (next : R e → Dialogue E R α) (f : α → Dialogue E R β) :
    ask e next >>= f = ask e fun r => next r >>= f := rfl

theorem bind_done (m : Dialogue E R α) : m >>= done = m := by
  induction m with
  | done a => rfl
  | ask e next ih => exact congrArg (ask e) (funext ih)

theorem bind_assoc {γ : Type} (m : Dialogue E R α) (f : α → Dialogue E R β)
    (g : β → Dialogue E R γ) : m >>= f >>= g = m >>= fun a => f a >>= g := by
  induction m with
  | done a => rfl
  | ask e next ih => exact congrArg (ask e) (funext ih)

instance : LawfulMonad (Dialogue E R) :=
  LawfulMonad.mk' _ bind_done (fun _ _ => rfl) bind_assoc

def question (e : E) : Dialogue E R (R e) := ask e done

/-- The result when every question gets the answer that `answer` gives it. -/
def run (answer : (e : E) → R e) : Dialogue E R α → α
  | done a => a
  | ask e next => (next (answer e)).run answer

@[simp] theorem run_done (answer : (e : E) → R e) (a : α) :
    (done a : Dialogue E R α).run answer = a := rfl

@[simp] theorem run_ask (answer : (e : E) → R e) (e : E) (next : R e → Dialogue E R α) :
    (ask e next).run answer = (next (answer e)).run answer := rfl

@[simp] theorem run_question (answer : (e : E) → R e) (e : E) :
    (question e : Dialogue E R (R e)).run answer = answer e := rfl

@[simp] theorem run_bind (answer : (e : E) → R e) (m : Dialogue E R α) (f : α → Dialogue E R β) :
    (m >>= f).run answer = (f (m.run answer)).run answer := by
  induction m with
  | done a => rfl
  | ask e next ih => exact ih (answer e)

/-- Some answers lead the program to ask `e`. -/
inductive Asks : Dialogue E R α → E → Prop where
  | here {e : E} {next : R e → Dialogue E R α} : Asks (ask e next) e
  | later {e q : E} {next : R e → Dialogue E R α} (r : R e) : Asks (next r) q → Asks (ask e next) q

@[simp] theorem not_asks_done {a : α} {q : E} : ¬(done a : Dialogue E R α).Asks q := nofun

@[simp] theorem asks_ask {e q : E} {next : R e → Dialogue E R α} :
    (ask e next).Asks q ↔ q = e ∨ ∃ r, (next r).Asks q := by
  constructor
  · rintro (_ | ⟨r, h⟩)
    · exact Or.inl rfl
    · exact Or.inr ⟨r, h⟩
  · rintro (rfl | ⟨r, h⟩)
    · exact .here
    · exact .later r h

/-- Some answers lead the program to end with `a`. -/
inductive Returns : Dialogue E R α → α → Prop where
  | done {a : α} : Returns (done a) a
  | ask {e : E} {next : R e → Dialogue E R α} {a : α} (r : R e) :
      Returns (next r) a → Returns (ask e next) a

@[simp] theorem returns_done {a b : α} : (done a : Dialogue E R α).Returns b ↔ b = a := by
  constructor
  · rintro ⟨⟩
    rfl
  · rintro rfl
    exact .done

@[simp] theorem returns_ask {e : E} {next : R e → Dialogue E R α} {a : α} :
    (ask e next).Returns a ↔ ∃ r, (next r).Returns a := by
  constructor
  · rintro ⟨⟩
    exact ⟨_, by assumption⟩
  · rintro ⟨r, h⟩
    exact .ask r h

@[simp] theorem returns_bind {m : Dialogue E R α} {f : α → Dialogue E R β} {b : β} :
    (m >>= f).Returns b ↔ ∃ a, m.Returns a ∧ (f a).Returns b := by
  induction m with
  | done a => simp
  | ask e next ih =>
    simp only [ask_bind, returns_ask, ih]
    constructor
    · rintro ⟨r, a, ha, hb⟩
      exact ⟨a, ⟨r, ha⟩, hb⟩
    · rintro ⟨a, ⟨r, ha⟩, hb⟩
      exact ⟨r, a, ha, hb⟩

theorem asks_bind {m : Dialogue E R α} {f : α → Dialogue E R β} {q : E} :
    (m >>= f).Asks q ↔ m.Asks q ∨ ∃ a, m.Returns a ∧ (f a).Asks q := by
  induction m with
  | done a => simp
  | ask e next ih =>
    simp only [ask_bind, asks_ask, returns_ask, ih]
    constructor
    · rintro (rfl | ⟨r, h | ⟨a, ha, h⟩⟩)
      · exact Or.inl (Or.inl rfl)
      · exact Or.inl (Or.inr ⟨r, h⟩)
      · exact Or.inr ⟨a, ⟨r, ha⟩, h⟩
    · rintro ((rfl | ⟨r, h⟩) | ⟨a, ⟨r, ha⟩, h⟩)
      · exact Or.inl rfl
      · exact Or.inr ⟨r, Or.inl h⟩
      · exact Or.inr ⟨r, Or.inr ⟨a, ha, h⟩⟩

/-- Every question of the program satisfies `P`, and the questions of each run cost at most `n`
together. -/
def Within (P : E → Prop) (cost : E → Nat) (n : Nat) : Dialogue E R α → Prop
  | done _ => True
  | ask e next => P e ∧ cost e ≤ n ∧ ∀ r, (next r).Within P cost (n - cost e)

section Within

variable {P Q : E → Prop} {cost : E → Nat} {n k : Nat}

theorem within_done (a : α) : (done a : Dialogue E R α).Within P cost n := trivial

theorem within_question {e : E} (hP : P e) (hn : cost e ≤ n) :
    (question e : Dialogue E R (R e)).Within P cost n :=
  ⟨hP, hn, fun _ => trivial⟩

theorem Within.mono {m : Dialogue E R α} (h : m.Within P cost n) (hnk : n ≤ k) :
    m.Within P cost k := by
  induction m generalizing n k with
  | done a => trivial
  | ask e next ih => exact ⟨h.1, by have := h.2.1; omega, fun r => ih r (h.2.2 r) (by omega)⟩

theorem Within.imp {m : Dialogue E R α} (h : m.Within P cost n) (hPQ : ∀ e, P e → Q e) :
    m.Within Q cost n := by
  induction m generalizing n with
  | done a => trivial
  | ask e next ih => exact ⟨hPQ e h.1, h.2.1, fun r => ih r (h.2.2 r)⟩

theorem Within.bind {m : Dialogue E R α} {f : α → Dialogue E R β} (hm : m.Within P cost n)
    (hf : ∀ a, (f a).Within P cost k) : (m >>= f).Within P cost (n + k) := by
  induction m generalizing n with
  | done a => exact (hf a).mono (by omega)
  | ask e next ih =>
    refine ⟨hm.1, by have := hm.2.1; omega, fun r => ?_⟩
    exact (ih r (hm.2.2 r)).mono (by have := hm.2.1; omega)

theorem Within.asks {m : Dialogue E R α} {e : E} (h : m.Within P cost n) (ha : m.Asks e) :
    P e := by
  induction ha generalizing n with
  | here => exact h.1
  | later r _ ih => exact ih (h.2.2 r)

theorem Within.cost_le {m : Dialogue E R α} {e : E} (h : m.Within P cost n) (ha : m.Asks e) :
    cost e ≤ n := by
  induction ha generalizing n with
  | here => exact h.2.1
  | later r _ ih => exact Nat.le_trans (ih (h.2.2 r)) (Nat.sub_le _ _)

end Within

end Dialogue
