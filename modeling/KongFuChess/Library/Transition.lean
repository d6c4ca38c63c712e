import Mathlib.Algebra.Group.Basic
import Mathlib.Algebra.Ring.Defs
import Mathlib.Data.List.Induction

/-!
# Runs of a deterministic state machine

A machine is a step function from a state and an operation to the next state; a run is a list of
operations. The module packages the inductions over runs once: invariants of reachable states,
properties of every step of a run, and lockstep simulations between two machines.

`Along` is the statement form for properties of runs. It says that a property relating a state and
the operation performed in it holds at every step of the run, and its rules transport such
statements through invariants.
-/

namespace KongFuChess.Transition

variable {State Op : Type*}

/-- The state after a list of operations. -/
def run (step : State → Op → State) (state : State) (ops : List Op) : State :=
  ops.foldl step state

@[simp]
theorem run_nil (step : State → Op → State) (state : State) : run step state [] = state := rfl

@[simp]
theorem run_cons (step : State → Op → State) (state : State) (op : Op) (ops : List Op) :
    run step state (op :: ops) = run step (step state op) ops := rfl

theorem run_append (step : State → Op → State) (state : State) (first second : List Op) :
    run step state (first ++ second) = run step (run step state first) second :=
  List.foldl_append

/-- Induction over the prefixes of one fixed run. The property may mention the operations already
performed, and at each step the whole run is known. -/
theorem run_induction {step : State → Op → State} {state : State} {ops : List Op}
    {P : List Op → State → Prop} (hinit : P [] state)
    (hstep : ∀ past op future, ops = past ++ op :: future → P past (run step state past) →
      P (past ++ [op]) (step (run step state past) op))
    {past future : List Op} (hsplit : ops = past ++ future) : P past (run step state past) := by
  induction past using List.reverseRecOn generalizing future with
  | nil => exact hinit
  | append_singleton past op ih =>
    have hcons : ops = past ++ op :: future := by simpa using hsplit
    simpa [run_append] using hstep past op future hcons (ih hcons)

/-- What holds after a run and did not hold before it has been brought about by one of its steps. -/
theorem exists_step {step : State → Op → State} {P : State → Prop} {state : State} {ops : List Op}
    (hbefore : ¬ P state) (hafter : P (run step state ops)) :
    ∃ past op future, ops = past ++ op :: future ∧ ¬ P (run step state past) ∧
      P (step (run step state past) op) := by
  by_contra hnone
  refine run_induction (P := fun _ state ↦ ¬ P state) hbefore ?_ (List.append_nil ops).symm hafter
  intro past op future hsplit hnot hholds
  exact hnone ⟨past, op, future, hsplit, hnot, hholds⟩

/-- What every step preserves, every run preserves. -/
theorem run_invariant (step : State → Op → State) {I : State → Prop}
    (hstep : ∀ state op, I state → I (step state op)) {state : State} (hinit : I state)
    (ops : List Op) : I (run step state ops) := by
  induction ops generalizing state with
  | nil => exact hinit
  | cons op ops ih => exact ih (hstep _ op hinit)

/-- States that some list of operations leads to from an initial state. -/
inductive Reachable (init : State → Prop) (step : State → Op → State) : State → Prop
  | start {state : State} (h : init state) : Reachable init step state
  | next {state : State} (op : Op) (h : Reachable init step state) :
      Reachable init step (step state op)

namespace Reachable

variable {init : State → Prop} {step : State → Op → State}

/-- An initial property that every step preserves holds in every reachable state. -/
theorem invariant {P : State → Prop} (hinit : ∀ state, init state → P state)
    (hstep : ∀ state op, P state → P (step state op)) {state : State}
    (h : Reachable init step state) : P state := by
  induction h with
  | start hstart => exact hinit _ hstart
  | next op _ ih => exact hstep _ op ih

theorem run {state : State} (h : Reachable init step state) (ops : List Op) :
    Reachable init step (run step state ops) :=
  run_invariant step (fun _ op hreachable ↦ .next op hreachable) h ops

end Reachable

/-- `P` relates every operation of the run to the state in which it is performed. -/
def Along (step : State → Op → State) (P : State → Op → Prop) : State → List Op → Prop
  | _, [] => True
  | state, op :: ops => P state op ∧ Along step P (step state op) ops

namespace Along

variable {step : State → Op → State} {P Q : State → Op → Prop}

@[simp]
theorem nil (state : State) : Along step P state [] := trivial

@[simp]
theorem cons (state : State) (op : Op) (ops : List Op) :
    Along step P state (op :: ops) ↔ P state op ∧ Along step P (step state op) ops := Iff.rfl

/-- Along one run a decidable property can be checked by performing the run. -/
instance decidable [∀ state op, Decidable (P state op)] :
    ∀ (state : State) (ops : List Op), Decidable (Along step P state ops)
  | _, [] => .isTrue trivial
  | state, op :: ops =>
    have := decidable (step state op) ops
    inferInstanceAs (Decidable (P state op ∧ Along step P (step state op) ops))

/-- The run rule for conditional properties: an invariant kept by the condition turns a condition on
every step into a conclusion about every step. -/
theorem imp_of_invariant {I : State → Prop}
    (hstep : ∀ state op, I state → P state op → I (step state op) ∧ Q state op)
    {state : State} {ops : List Op} (hinit : I state) (h : Along step P state ops) :
    Along step Q state ops := by
  induction ops generalizing state with
  | nil => trivial
  | cons op ops ih =>
    obtain ⟨hnext, hhead⟩ := hstep _ _ hinit h.1
    exact ⟨hhead, ih hnext h.2⟩

/-- What every step preserves under the condition holds at the end of the run. -/
theorem invariant {I : State → Prop} (hstep : ∀ state op, I state → P state op → I (step state op))
    {state : State} {ops : List Op} (hinit : I state) (h : Along step P state ops) :
    I (run step state ops) := by
  induction ops generalizing state with
  | nil => exact hinit
  | cons op ops ih => exact ih (hstep _ _ hinit h.1) h.2

/-- An unconditional invariant establishes a property of every step. -/
theorem of_invariant {I : State → Prop} (hinv : ∀ state op, I state → I (step state op))
    (hprop : ∀ state op, I state → P state op) {state : State} (hinit : I state)
    (ops : List Op) : Along step P state ops := by
  induction ops generalizing state with
  | nil => trivial
  | cons op ops ih => exact ⟨hprop _ _ hinit, ih (hinv _ _ hinit)⟩

end Along

section Emissions

variable {Event : Type*}

/-- What the steps of a run emit, in order. -/
def emissions (step : State → Op → State) (emit : State → Op → List Event) :
    State → List Op → List Event
  | _, [] => []
  | state, op :: ops => emit state op ++ emissions step emit (step state op) ops

@[simp]
theorem emissions_nil (step : State → Op → State) (emit : State → Op → List Event)
    (state : State) : emissions step emit state [] = [] := rfl

@[simp]
theorem emissions_cons (step : State → Op → State) (emit : State → Op → List Event)
    (state : State) (op : Op) (ops : List Op) :
    emissions step emit state (op :: ops) =
      emit state op ++ emissions step emit (step state op) ops := rfl

theorem emissions_map {Part : Type*} (step : State → Op → State) (emit : State → Op → List Event)
    (part : Event → Part) (state : State) (ops : List Op) :
    (emissions step emit state ops).map part =
      emissions step (fun state op ↦ (emit state op).map part) state ops := by
  induction ops generalizing state with
  | nil => rfl
  | cons op ops ih => rw [emissions_cons, emissions_cons, List.map_append, ih]

/-- The rule of a queue: what is held at first and what enters leave in this order, up to what is
held at the end, if this is so in every step. -/
theorem emissions_conserved (step : State → Op → State) {I : State → Prop}
    (held : State → List Event) (entered left : State → Op → List Event)
    (hkeep : ∀ state op, I state → I (step state op))
    (hconserved : ∀ state op, I state →
      held state ++ entered state op = left state op ++ held (step state op))
    (state : State) (hinit : I state) (ops : List Op) :
    held state ++ emissions step entered state ops =
      emissions step left state ops ++ held (run step state ops) := by
  induction ops generalizing state with
  | nil => simp
  | cons op ops ih =>
    have htail := ih _ (hkeep _ op hinit)
    rw [emissions_cons, emissions_cons, run_cons, ← List.append_assoc, hconserved _ op hinit,
      List.append_assoc, htail, List.append_assoc]

end Emissions

section Accumulate

variable {M : Type*} [AddCommMonoid M]

/-- The sum over the steps of a run of a weight of the state and the operation performed in it. -/
def accumulate (step : State → Op → State) (weight : State → Op → M) : State → List Op → M
  | _, [] => 0
  | state, op :: ops => weight state op + accumulate step weight (step state op) ops

@[simp]
theorem accumulate_nil (step : State → Op → State) (weight : State → Op → M) (state : State) :
    accumulate step weight state [] = 0 := rfl

@[simp]
theorem accumulate_cons (step : State → Op → State) (weight : State → Op → M) (state : State)
    (op : Op) (ops : List Op) :
    accumulate step weight state (op :: ops) =
      weight state op + accumulate step weight (step state op) ops := rfl

theorem accumulate_zero (step : State → Op → State) (state : State) (ops : List Op) :
    accumulate step (fun _ _ ↦ (0 : M)) state ops = 0 := by
  induction ops generalizing state with
  | nil => rfl
  | cons op ops ih => rw [accumulate_cons, ih, add_zero]

theorem accumulate_add (step : State → Op → State) (left right : State → Op → M) (state : State)
    (ops : List Op) :
    accumulate step (fun state op ↦ left state op + right state op) state ops =
      accumulate step left state ops + accumulate step right state ops := by
  induction ops generalizing state with
  | nil => simp
  | cons op ops ih => rw [accumulate_cons, accumulate_cons, accumulate_cons, ih, add_add_add_comm]

theorem accumulate_mul {R : Type*} [NonUnitalNonAssocSemiring R] (step : State → Op → State)
    (factor : R) (weight : State → Op → R) (state : State) (ops : List Op) :
    accumulate step (fun state op ↦ factor * weight state op) state ops =
      factor * accumulate step weight state ops := by
  induction ops generalizing state with
  | nil => simp
  | cons op ops ih => rw [accumulate_cons, accumulate_cons, ih, mul_add]

/-- The balance rule: a quantity that every step changes by `gained` on one side and by `lost` on
the other changes over a run by the accumulated gains and losses. -/
theorem accumulate_balance (step : State → Op → State) {I : State → Prop} (level : State → M)
    (gained lost : State → Op → M) (hkeep : ∀ state op, I state → I (step state op))
    (hbalance : ∀ state op, I state →
      level (step state op) + lost state op = level state + gained state op)
    (state : State) (hinit : I state) (ops : List Op) :
    level (run step state ops) + accumulate step lost state ops =
      level state + accumulate step gained state ops := by
  induction ops generalizing state with
  | nil => rfl
  | cons op ops ih =>
    have htail := ih _ (hkeep _ op hinit)
    have hhead := hbalance _ op hinit
    rw [run_cons, accumulate_cons, accumulate_cons, add_left_comm, htail, ← add_assoc,
      add_comm (lost _ _), hhead, add_assoc]

end Accumulate

section Rounds

/-- The progress rule: if every round of steps settles a state or lowers its rank, and what is
settled remains so, then more rounds than the rank settle it. -/
theorem run_rounds (step : State → Op → State) {I P : State → Prop}
    {round : List Op → Prop} (rank : State → ℕ)
    (hkeep : ∀ state op, I state → I (step state op))
    (hsettled : ∀ state op, I state → P state → P (step state op))
    (hround : ∀ state ops, I state → round ops →
      P (run step state ops) ∨ rank (run step state ops) < rank state)
    {state : State} (hinit : I state) {rounds : List (List Op)}
    (hrounds : ∀ ops ∈ rounds, round ops) (hrank : rank state < rounds.length) :
    P (run step state rounds.flatten) := by
  induction rounds generalizing state with
  | nil => exact absurd hrank (Nat.not_lt_zero _)
  | cons ops rounds ih =>
    rw [List.flatten_cons, run_append]
    have hlater : I (run step state ops) := run_invariant step hkeep hinit ops
    rcases hround state ops hinit (hrounds ops List.mem_cons_self) with hdone | hlower
    · have hboth := run_invariant step (I := fun state ↦ I state ∧ P state)
        (fun state op h ↦ ⟨hkeep state op h.1, hsettled state op h.1 h.2⟩) ⟨hlater, hdone⟩
      exact (hboth rounds.flatten).2
    · apply ih hlater
      · exact fun later hmem ↦ hrounds later (List.mem_cons_of_mem _ hmem)
      · rw [List.length_cons] at hrank
        omega

end Rounds

section Lockstep

variable {State' Op' : Type*} {step : State → Op → State} {step' : State' → Op' → State'}

/-- Two machines that keep a relation step by step keep it over whole runs. -/
theorem run_lockstep {R : State → State' → Prop} {translate : Op → Op'}
    (hstep : ∀ state state' op, R state state' → R (step state op) (step' state' (translate op)))
    {state : State} {state' : State'} (h : R state state') (ops : List Op) :
    R (run step state ops) (run step' state' (ops.map translate)) := by
  induction ops generalizing state state' with
  | nil => exact h
  | cons op ops ih => exact ih (hstep _ _ op h)

end Lockstep

section Reordering

variable {R : State → State → Prop}

/-- Runs keep a relation that every step keeps. -/
theorem run_congr {step : State → Op → State}
    (hcongr : ∀ op left right, R left right → R (step left op) (step right op))
    {left right : State} (h : R left right) (ops : List Op) :
    R (run step left ops) (run step right ops) := by
  induction ops generalizing left right with
  | nil => exact h
  | cons op ops ih => exact ih (hcongr op _ _ h)

/-- An operation can be postponed past operations that commute with it. -/
theorem run_postpone (hR : Equivalence R) {step : State → Op → State}
    (hcongr : ∀ op left right, R left right → R (step left op) (step right op)) {op : Op}
    {ops : List Op}
    (hcomm : ∀ other ∈ ops, ∀ state, R (step (step state op) other) (step (step state other) op))
    (state : State) : R (run step (step state op) ops) (step (run step state ops) op) := by
  induction ops generalizing state with
  | nil => exact hR.refl _
  | cons other ops ih =>
    have hswap := run_congr hcongr (hcomm other (List.mem_cons_self ..) state) ops
    exact hR.trans hswap (ih (fun next hnext ↦ hcomm next (List.mem_cons_of_mem _ hnext)) _)

/-- The selected operations can be performed first, if the others commute with every selected
operation performed after them. -/
theorem run_partition (hR : Equivalence R) {step : State → Op → State}
    (hcongr : ∀ op left right, R left right → R (step left op) (step right op))
    (selected : Op → Bool) {ops : List Op}
    (hcomm : ops.Pairwise fun op other ↦ selected op = false → selected other = true →
      ∀ state, R (step (step state op) other) (step (step state other) op))
    (state : State) :
    R (run step state ops)
      (run step (run step state (ops.filter selected)) (ops.filter fun op ↦ !selected op)) := by
  induction ops generalizing state with
  | nil => exact hR.refl _
  | cons op ops ih =>
    rw [List.pairwise_cons] at hcomm
    have htail := ih hcomm.2 (step state op)
    cases hop : selected op with
    | true => simpa [hop] using htail
    | false =>
      have hcommute : ∀ other ∈ ops.filter selected, ∀ state,
          R (step (step state op) other) (step (step state other) op) := fun other hother ↦
        hcomm.1 other (List.mem_filter.1 hother).1 hop (List.mem_filter.1 hother).2
      have hpostpone := run_postpone hR hcongr hcommute state
      have hrest := run_congr hcongr hpostpone (ops.filter fun op ↦ !selected op)
      simpa [hop] using hR.trans htail hrest

/-- Operations that commute pairwise can be performed in any order. -/
theorem run_perm (hR : Equivalence R) {step : State → Op → State}
    (hcongr : ∀ op left right, R left right → R (step left op) (step right op))
    {ops ops' : List Op} (hperm : ops.Perm ops')
    (hcomm : ops.Pairwise fun op other ↦
      ∀ state, R (step (step state op) other) (step (step state other) op))
    (state : State) : R (run step state ops) (run step state ops') := by
  induction hperm generalizing state with
  | nil => exact hR.refl _
  | cons op _ ih => exact ih (List.pairwise_cons.1 hcomm).2 (step state op)
  | swap first second ops =>
    have hhead := (List.pairwise_cons.1 hcomm).1 first (List.mem_cons_self ..)
    exact run_congr hcongr (hhead state) ops
  | trans hfirst _ ih ih' =>
    have hsymm : ∀ {op other : Op},
        (∀ state, R (step (step state op) other) (step (step state other) op)) →
          ∀ state, R (step (step state other) op) (step (step state op) other) :=
      fun h state ↦ hR.symm (h state)
    exact hR.trans (ih hcomm state) (ih' (hfirst.pairwise hcomm hsymm) state)

end Reordering

end KongFuChess.Transition
