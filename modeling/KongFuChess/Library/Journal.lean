import Mathlib.Data.Nat.Init

/-!
# Journals of a clocked machine

A clocked machine either ticks or performs an entry that is due in its state at its time. A
journal lists the entries performed between two states, in order, and leaves out the ticks.

A journal can be extended at its end, as the machine goes on, and consumed from its front, by
somebody who repeats what the machine has done.
-/

namespace KongFuChess.Journal

variable {State Entry : Type*}

/-- From the first state at the first time, ticks and the listed entries lead to the second state
at the second time. -/
inductive Leads (tick : State → State) (perform : State → Entry → State)
    (Due : State → ℕ → Entry → Prop) : State → ℕ → List Entry → State → ℕ → Prop
  | done (state : State) (time : ℕ) : Leads tick perform Due state time [] state time
  | tick {state last : State} {time lastTime : ℕ} {entries : List Entry}
      (h : Leads tick perform Due (tick state) (time + 1) entries last lastTime) :
      Leads tick perform Due state time entries last lastTime
  | perform {state last : State} {time lastTime : ℕ} {entry : Entry} {entries : List Entry}
      (hdue : Due state time entry)
      (h : Leads tick perform Due (perform state entry) time entries last lastTime) :
      Leads tick perform Due state time (entry :: entries) last lastTime

namespace Leads

variable {tick : State → State} {perform : State → Entry → State}
  {Due : State → ℕ → Entry → Prop} {state last : State} {time lastTime : ℕ} {entry : Entry}
  {entries : List Entry}

theorem le (h : Leads tick perform Due state time entries last lastTime) : time ≤ lastTime := by
  induction h with
  | done => exact Nat.le_refl _
  | tick _ ih => exact Nat.le_of_succ_le ih
  | perform _ _ ih => exact ih

/-! ## Going on -/

theorem andTick (h : Leads tick perform Due state time entries last lastTime) :
    Leads tick perform Due state time entries (tick last) (lastTime + 1) := by
  induction h with
  | done => exact .tick (.done _ _)
  | tick _ ih => exact .tick ih
  | perform hdue _ ih => exact .perform hdue ih

theorem andPerform (h : Leads tick perform Due state time entries last lastTime)
    (hdue : Due last lastTime entry) :
    Leads tick perform Due state time (entries ++ [entry]) (perform last entry) lastTime := by
  induction h with
  | done => exact .perform hdue (.done _ _)
  | tick _ ih => exact .tick (ih hdue)
  | perform hdue' _ ih => exact .perform hdue' (ih hdue)

/-! ## Catching up -/

/-- How a journal begins. -/
theorem inversion (h : Leads tick perform Due state time entries last lastTime) :
    (entries = [] ∧ last = state ∧ lastTime = time) ∨
      Leads tick perform Due (tick state) (time + 1) entries last lastTime ∨
      ∃ entry rest, entries = entry :: rest ∧ Due state time entry ∧
        Leads tick perform Due (perform state entry) time rest last lastTime := by
  cases h with
  | done => exact .inl ⟨rfl, rfl, rfl⟩
  | tick h => exact .inr (.inl h)
  | perform hdue h => exact .inr (.inr ⟨_, _, rfl, hdue, h⟩)

/-- Before the first entry the machine only ticks. -/
theorem split (h : Leads tick perform Due state time (entry :: entries) last lastTime) :
    ∃ before due, Leads tick perform Due state time [] before due ∧ Due before due entry ∧
      Leads tick perform Due (perform before entry) due entries last lastTime := by
  generalize hjournal : entry :: entries = journal at h
  induction h with
  | done => exact absurd hjournal (List.cons_ne_nil _ _)
  | tick _ ih =>
    obtain ⟨before, due, hbefore, hdue, hrest⟩ := ih hjournal
    exact ⟨before, due, .tick hbefore, hdue, hrest⟩
  | perform hdue hrest =>
    obtain ⟨rfl, rfl⟩ := List.cons.inj hjournal
    exact ⟨_, _, .done _ _, hdue, hrest⟩

theorem eq_of_le (h : Leads tick perform Due state time [] last lastTime) (hle : lastTime ≤ time) :
    last = state := by
  cases h with
  | done => rfl
  | tick hrest => exact absurd hrest.le (by omega)

/-- What the ticks preserve holds after a journal without entries. -/
theorem nil_invariant {P : State → Prop} (htick : ∀ state, P state → P (tick state))
    (h : Leads tick perform Due state time [] last lastTime) (hinit : P state) : P last := by
  generalize hjournal : ([] : List Entry) = journal at h
  induction h with
  | done => exact hinit
  | tick _ ih => exact ih (htick _ hinit) hjournal
  | perform => exact absurd hjournal.symm (List.cons_ne_nil _ _)

/-- Once no entry can become due any more, the journal has come to its end. -/
theorem nil_of_stuck {P : State → Prop} (htick : ∀ state, P state → P (tick state))
    (hstuck : ∀ state time entry, P state → ¬ Due state time entry)
    (h : Leads tick perform Due state time entries last lastTime) (hinit : P state) :
    entries = [] := by
  induction h with
  | done => rfl
  | tick _ ih => exact ih (htick _ hinit)
  | perform hdue => exact absurd hdue (hstuck _ _ _ hinit)

end Leads

end KongFuChess.Journal
