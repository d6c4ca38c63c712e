import KongFuChess.Engine.Operations
import KongFuChess.Library.Transition

/-!
# Runs of the engine

An operation is a call that the game makes on the engine between two resets. A result received
from a remote engine is applied only while the game is not over, as both of its callers guard it.

A state is reachable when operations lead to it from a reset of an arbitrary engine; since the
board given to a reset is arbitrary, runs with resets in between are included.
-/

namespace KongFuChess.Engine

open Model Realtime Rules Events

inductive Op
  | requestMove (fromPos toPos : Position)
  | requestJump (pos : Position)
  | queuePremove (key fromPos toPos : Position)
  | advanceTime (ms : ℕ)
  | remoteGameEnded (winner : Color)
deriving DecidableEq, Repr

/-- A property of the calls of `advanceTime`, as a property of all operations. -/
def AtAdvance {State : Type*} (P : State → ℕ → Prop) (state : State) : Op → Prop
  | .advanceTime ms => P state ms
  | _ => True

instance {State : Type*} (P : State → ℕ → Prop) [∀ state ms, Decidable (P state ms)]
    (state : State) (op : Op) : Decidable (AtAdvance P state op) :=
  match op with
  | .advanceTime ms => inferInstanceAs (Decidable (P state ms))
  | .requestMove .. | .requestJump _ | .queuePremove .. | .remoteGameEnded _ => .isTrue trivial

/-- An amount that only calls of `advanceTime` contribute to. -/
def duringAdvance {State M : Type*} [Zero M] (amount : State → ℕ → M) (state : State) : Op → M
  | .advanceTime ms => amount state ms
  | _ => 0

namespace GameEngine

/-- Perform an operation; requests answer whether they were accepted. -/
def perform (engine : GameEngine) : Op → Option Bool × GameEngine
  | .requestMove fromPos toPos =>
    let (accepted, engine) := engine.requestMove fromPos toPos
    (some accepted, engine)
  | .requestJump pos =>
    let (accepted, engine) := engine.requestJump pos
    (some accepted, engine)
  | .queuePremove key fromPos toPos => (none, engine.queuePremove key fromPos toPos)
  | .advanceTime ms => (none, engine.advanceTime ms)
  | .remoteGameEnded winner =>
    (none, if engine.isGameOver then engine else engine.applyRemoteGameEnded winner)

def answer (engine : GameEngine) (op : Op) : Option Bool := (engine.perform op).1

def step (engine : GameEngine) (op : Op) : GameEngine := (engine.perform op).2

@[simp]
theorem step_requestMove (engine : GameEngine) (fromPos toPos : Position) :
    engine.step (.requestMove fromPos toPos) = (engine.requestMove fromPos toPos).2 := rfl

@[simp]
theorem step_requestJump (engine : GameEngine) (pos : Position) :
    engine.step (.requestJump pos) = (engine.requestJump pos).2 := rfl

@[simp]
theorem step_queuePremove (engine : GameEngine) (key fromPos toPos : Position) :
    engine.step (.queuePremove key fromPos toPos) = engine.queuePremove key fromPos toPos := rfl

@[simp]
theorem step_advanceTime (engine : GameEngine) (ms : ℕ) :
    engine.step (.advanceTime ms) = engine.advanceTime ms := rfl

@[simp]
theorem step_remoteGameEnded (engine : GameEngine) (winner : Color) :
    engine.step (.remoteGameEnded winner) =
      if engine.isGameOver then engine else engine.applyRemoteGameEnded winner := rfl

/-- The guards of the requests, as one predicate. -/
def accepts (engine : GameEngine) : Op → Bool
  | .requestMove fromPos toPos =>
    !engine.isGameOver && !engine.isBusyAt fromPos && validateMove engine.board fromPos toPos
  | .requestJump pos =>
    !engine.isGameOver && !engine.isBusyAt pos && engine.board.inBounds pos &&
      !(engine.board.cell pos).isEmpty && (engine.board.cell pos).jumpCooldownRemainingMs ≤ 0
  | _ => false

theorem answer_eq_true_iff (engine : GameEngine) (op : Op) :
    engine.answer op = some true ↔ engine.accepts op = true := by
  cases op with
  | requestMove fromPos toPos =>
    simp only [answer, perform, requestMove, accepts]
    cases engine.isGameOver <;> cases engine.isBusyAt fromPos <;>
      cases validateMove engine.board fromPos toPos <;> simp
  | requestJump pos =>
    simp only [answer, perform, requestJump, accepts]
    cases engine.isGameOver <;> cases engine.isBusyAt pos <;> cases engine.board.inBounds pos <;>
      cases (engine.board.cell pos).isEmpty <;>
      by_cases hrested : (engine.board.cell pos).jumpCooldownRemainingMs ≤ 0 <;>
      simp [hrested, not_lt.2, not_le.1]
  | queuePremove | advanceTime | remoteGameEnded => simp [answer, perform, accepts]

theorem requestMove_of_refused {engine : GameEngine} {fromPos toPos : Position}
    (h : engine.accepts (.requestMove fromPos toPos) = false) :
    engine.requestMove fromPos toPos = (false, engine) := by
  refine (engine.requestMove_cases fromPos toPos).resolve_right fun ⟨_, heq⟩ ↦ ?_
  have haccepted := (engine.answer_eq_true_iff (.requestMove fromPos toPos)).1 (by
    simp [answer, perform, heq])
  simp [h] at haccepted

theorem requestJump_of_refused {engine : GameEngine} {pos : Position}
    (h : engine.accepts (.requestJump pos) = false) :
    engine.requestJump pos = (false, engine) := by
  refine (engine.requestJump_cases pos).resolve_right fun ⟨_, heq⟩ ↦ ?_
  have haccepted := (engine.answer_eq_true_iff (.requestJump pos)).1 (by
    simp [answer, perform, heq])
  simp [h] at haccepted

/-- Only `advanceTime` touches the board. -/
theorem board_step (engine : GameEngine) {op : Op} (h : ∀ ms, op ≠ .advanceTime ms) :
    (engine.step op).board = engine.board := by
  cases op with
  | requestMove fromPos toPos =>
    exact requestMove_induction (P := fun later ↦ later.board = engine.board) (fun _ ↦ rfl) rfl
  | requestJump pos =>
    exact requestJump_induction (P := fun later ↦ later.board = engine.board) (fun _ ↦ rfl) rfl
  | queuePremove key fromPos toPos => rfl
  | advanceTime ms => exact absurd rfl (h ms)
  | remoteGameEnded winner =>
    rw [step_remoteGameEnded]
    split <;> rfl

/-- Only `advanceTime` writes the log. -/
theorem moveLog_step (engine : GameEngine) {op : Op} (h : ∀ ms, op ≠ .advanceTime ms) :
    (engine.step op).moveLog = engine.moveLog := by
  cases op with
  | requestMove fromPos toPos =>
    exact requestMove_induction (P := fun later ↦ later.moveLog = engine.moveLog) (fun _ ↦ rfl) rfl
  | requestJump pos =>
    exact requestJump_induction (P := fun later ↦ later.moveLog = engine.moveLog) (fun _ ↦ rfl) rfl
  | queuePremove key fromPos toPos => rfl
  | advanceTime ms => exact absurd rfl (h ms)
  | remoteGameEnded winner =>
    rw [step_remoteGameEnded]
    split <;> rfl

theorem duringAdvance_of_ne {M : Type*} [Zero M] (amount : GameEngine → ℕ → M)
    (engine : GameEngine) {op : Op} (h : ∀ ms, op ≠ .advanceTime ms) :
    duringAdvance amount engine op = 0 := by
  cases op with
  | advanceTime ms => exact absurd rfl (h ms)
  | _ => rfl

/-- The states a reset leaves behind. -/
def Initial (engine : GameEngine) : Prop := ∃ before : GameEngine, engine = before.reset

abbrev run (engine : GameEngine) (ops : List Op) : GameEngine := Transition.run step engine ops

abbrev Reachable : GameEngine → Prop := Transition.Reachable Initial step

theorem reachable_reset (engine : GameEngine) : Reachable engine.reset := .start ⟨engine, rfl⟩

theorem reachable_run (engine : GameEngine) (ops : List Op) :
    Reachable (engine.reset.run ops) :=
  (reachable_reset engine).run ops

/-- The induction rule for engine invariants: resets establish it, accepted requests keep it, and
so do queued premoves, verdicts from outside and `advanceTime`. -/
theorem step_induction {P : GameEngine → Prop} {engine : GameEngine} {op : Op}
    (hmove : ∀ fromPos toPos, engine.MoveAccepted fromPos toPos →
      P (engine.start (engine.newMove fromPos toPos)
        (.moveStarted (engine.moveStartedEvent fromPos toPos))))
    (hjump : ∀ pos, engine.JumpAccepted pos →
      P (engine.start (engine.newJump pos) (.jumpStarted (engine.jumpStartedEvent pos))))
    (hpremove : ∀ key fromPos toPos, P (engine.queuePremove key fromPos toPos))
    (hadvance : ∀ ms : ℕ, P (engine.advanceTime ms))
    (hremote : ∀ winner, engine.isGameOver = false → P (engine.applyRemoteGameEnded winner))
    (h : P engine) : P (engine.step op) := by
  cases op with
  | requestMove fromPos toPos => exact requestMove_induction (hmove fromPos toPos) h
  | requestJump pos => exact requestJump_induction (hjump pos) h
  | queuePremove key fromPos toPos => exact hpremove key fromPos toPos
  | advanceTime ms => exact hadvance ms
  | remoteGameEnded winner =>
    rw [step_remoteGameEnded]
    split
    · exact h
    · exact hremote winner (by simp_all)

/-- The induction rule for properties of motions in `advanceTime`: the premoves are requests to an
engine on which the time has passed and the arrivals have been resolved. -/
theorem forall_active_advanceTime {p : Motion → Prop} {engine : GameEngine} {ms : ℤ}
    (hmove : ∀ (later : GameEngine) (fromPos toPos : Position),
      later.board = (engine.afterArrivals ms).board → later.elapsedMs = engine.elapsedMs + ms →
        later.MoveAccepted fromPos toPos → p (later.newMove fromPos toPos))
    (h : ∀ motion ∈ engine.activeMotions, p motion) :
    ∀ motion ∈ (engine.advanceTime ms).activeMotions, p motion := by
  have hpremoves := processPremoves_induction
    (P := fun later ↦ later.board = (engine.afterArrivals ms).board ∧
      later.elapsedMs = engine.elapsedMs + ms ∧ ∀ motion ∈ later.activeMotions, p motion)
    (fun _ _ hlater ↦ hlater)
    (fun later fromPos toPos ⟨hboard, helapsed, hlater⟩ ↦ requestMove_induction
      (P := fun next ↦ next.board = (engine.afterArrivals ms).board ∧
        next.elapsedMs = engine.elapsedMs + ms ∧ ∀ motion ∈ next.activeMotions, p motion)
      (fun haccepted ↦ ⟨hboard, helapsed,
        forall_mem_start hlater (hmove later fromPos toPos hboard helapsed haccepted)⟩)
      ⟨hboard, helapsed, hlater⟩)
    ⟨rfl, elapsedMs_afterArrivals engine ms, fun motion hmem ↦ by
      rw [activeMotions_afterArrivals] at hmem
      exact h motion (List.mem_of_mem_filter hmem)⟩ (engine.completing ms)
  intro motion hmem
  rw [advanceTime_eq, activeMotions, arbiter_applyCooldown] at hmem
  exact hpremoves.2.2 motion hmem

/-- The induction rule for properties that every motion has from its start. -/
theorem forall_active_step {p : Motion → Prop} {engine : GameEngine}
    (hmove : ∀ (later : GameEngine) (fromPos toPos : Position),
      later.MoveAccepted fromPos toPos → p (later.newMove fromPos toPos))
    (hjump : ∀ (later : GameEngine) (pos : Position),
      later.JumpAccepted pos → p (later.newJump pos))
    (h : ∀ motion ∈ engine.activeMotions, p motion) (op : Op) :
    ∀ motion ∈ (engine.step op).activeMotions, p motion :=
  step_induction (P := fun later ↦ ∀ motion ∈ later.activeMotions, p motion)
    (fun fromPos toPos haccepted ↦ forall_mem_start h (hmove engine fromPos toPos haccepted))
    (fun pos haccepted ↦ forall_mem_start h (hjump engine pos haccepted)) (fun _ _ _ ↦ h)
    (fun _ ↦ forall_active_advanceTime
      (fun later fromPos toPos _ _ haccepted ↦ hmove later fromPos toPos haccepted) h)
    (fun _ _ ↦ h) h

/-- What a step has started, it has started at the time that the clock shows in the end. -/
theorem mem_or_startedAt_step (engine : GameEngine) (op : Op) :
    ∀ motion ∈ (engine.step op).activeMotions,
      motion ∈ engine.activeMotions ∨ motion.startedAtMs = (engine.step op).elapsedMs := by
  have hold : ∀ motion ∈ engine.activeMotions, ∀ time,
      motion ∈ engine.activeMotions ∨ motion.startedAtMs = time := fun _ hmem _ ↦ .inl hmem
  apply step_induction (P := fun later ↦ ∀ motion ∈ later.activeMotions,
    motion ∈ engine.activeMotions ∨ motion.startedAtMs = later.elapsedMs)
  · exact fun _ _ _ ↦ forall_mem_start (fun motion hmem ↦ hold motion hmem _) (.inr rfl)
  · exact fun _ _ ↦ forall_mem_start (fun motion hmem ↦ hold motion hmem _) (.inr rfl)
  · exact fun _ _ _ motion hmem ↦ hold motion hmem _
  · intro ms
    rw [elapsedMs_advanceTime]
    exact forall_active_advanceTime (fun _ _ _ _ helapsed _ ↦ .inr helapsed)
      fun motion hmem ↦ hold motion hmem _
  · exact fun _ _ motion hmem ↦ hold motion hmem _
  · exact fun motion hmem ↦ hold motion hmem _

end GameEngine

end KongFuChess.Engine
