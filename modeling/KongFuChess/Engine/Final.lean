import KongFuChess.Engine.Delay

/-!
# Game over is final

The flag is set in the middle of `advanceTime`, before the arrivals are resolved, or by a result
received from a remote engine. From then on the engine only lets the motions in flight arrive: it
refuses every request, the premoves start nothing, and no second result is published.
-/

namespace KongFuChess.Engine

open Model Realtime Rules Events

namespace GameEngine

/-! ## One step of a finished game -/

/-- Nothing has been started between the two states. -/
structure NothingStarted (engine later : GameEngine) : Prop where
  activeMotions : later.activeMotions.Sublist engine.activeMotions
  nextMotionId : later.nextMotionId = engine.nextMotionId

theorem NothingStarted.refl (engine : GameEngine) : engine.NothingStarted engine :=
  ⟨List.Sublist.refl _, rfl⟩

theorem NothingStarted.trans {engine later last : GameEngine} (h : engine.NothingStarted later)
    (h' : later.NothingStarted last) : engine.NothingStarted last :=
  ⟨h'.activeMotions.trans h.activeMotions, h'.nextMotionId.trans h.nextMotionId⟩

/-- The premoves start nothing once the game is over. -/
theorem processPremoves_of_over {engine : GameEngine} (hover : engine.isGameOver = true)
    (completing : List Motion) : engine.processPremovesAfterAdvance completing = engine :=
  if_pos hover

/-- An operation after which the game is over has started nothing, whether or not the game was over
before. -/
theorem nothingStarted_step {engine : GameEngine} {op : Op}
    (hover : (engine.step op).isGameOver = true) : engine.NothingStarted (engine.step op) := by
  cases op with
  | requestMove fromPos toPos =>
    rw [step_requestMove] at hover ⊢
    rcases engine.requestMove_cases fromPos toPos with heq | ⟨haccepted, heq⟩
    · rw [heq]
      exact .refl engine
    · rw [heq, isGameOver_start, haccepted.not_over] at hover
      exact absurd hover Bool.false_ne_true
  | requestJump pos =>
    rw [step_requestJump] at hover ⊢
    rcases engine.requestJump_cases pos with heq | ⟨haccepted, heq⟩
    · rw [heq]
      exact .refl engine
    · rw [heq, isGameOver_start, haccepted.not_over] at hover
      exact absurd hover Bool.false_ne_true
  | queuePremove key fromPos toPos => exact ⟨List.Sublist.refl _, rfl⟩
  | advanceTime ms =>
    rw [step_advanceTime] at hover ⊢
    have hended : (engine.afterArrivals ms).isGameOver = true := by
      rwa [isGameOver_afterArrivals, ← isGameOver_advanceTime]
    rw [advanceTime_eq, processPremoves_of_over hended]
    constructor
    · rw [activeMotions, arbiter_applyCooldown]
      have hactive := activeMotions_afterArrivals engine ms
      rw [activeMotions] at hactive
      rw [hactive]
      exact List.filter_sublist
    · rw [nextMotionId_applyCooldown, nextMotionId_afterArrivals]
  | remoteGameEnded winner =>
    rw [step_remoteGameEnded]
    split <;> exact ⟨List.Sublist.refl _, rfl⟩

/-- No operation takes a verdict back. -/
theorem over_step {engine : GameEngine} (hover : engine.isGameOver = true) (op : Op) :
    (engine.step op).isGameOver = true ∧ (engine.step op).winner = engine.winner := by
  have hopen : engine.isGameOver ≠ false := by simp [hover]
  apply step_induction (P := fun later ↦ later.isGameOver = true ∧ later.winner = engine.winner)
  · exact fun _ _ haccepted ↦ absurd haccepted.not_over hopen
  · exact fun _ haccepted ↦ absurd haccepted.not_over hopen
  · exact fun _ _ _ ↦ ⟨hover, rfl⟩
  · exact fun ms ↦ over_advanceTime hover ms
  · exact fun _ hnot ↦ absurd hnot hopen
  · exact ⟨hover, rfl⟩

theorem requestMove_of_over {engine : GameEngine} (hover : engine.isGameOver = true)
    (fromPos toPos : Position) : engine.requestMove fromPos toPos = (false, engine) := by
  rcases engine.requestMove_cases fromPos toPos with heq | ⟨haccepted, -⟩
  · exact heq
  · exact absurd (haccepted.not_over.symm.trans hover) Bool.false_ne_true

theorem requestJump_of_over {engine : GameEngine} (hover : engine.isGameOver = true)
    (pos : Position) : engine.requestJump pos = (false, engine) := by
  rcases engine.requestJump_cases pos with heq | ⟨haccepted, -⟩
  · exact heq
  · exact absurd (haccepted.not_over.symm.trans hover) Bool.false_ne_true

/-- A finished game has a winner. -/
theorem winner_isSome_of_over {engine : GameEngine} (h : Reachable engine) :
    engine.isGameOver = true → engine.winner.isSome = true := by
  refine h.invariant (P := fun engine ↦ engine.isGameOver = true → engine.winner.isSome = true)
    ?_ ?_
  · rintro _ ⟨before, rfl⟩ hover
    exact absurd hover Bool.false_ne_true
  · intro engine op ih
    apply step_induction (P := fun later ↦ later.isGameOver = true → later.winner.isSome = true)
    · exact fun _ _ _ ↦ ih
    · exact fun _ _ ↦ ih
    · exact fun _ _ _ ↦ ih
    · intro ms
      rw [isGameOver_advanceTime, winner_advanceTime]
      exact checkGameOver_induction
        (P := fun later ↦ later.isGameOver = true → later.winner.isSome = true)
        (fun _ _ ↦ rfl) ih _
    · exact fun _ _ _ ↦ rfl
    · exact ih

/-! ## The rest of a finished game -/

/-- What has become of a game that ended when `engine` was left for `ended`. -/
structure Finished (engine ended later : GameEngine) : Prop where
  isOver : later.isGameOver = true
  winner : later.winner = ended.winner
  nothingStarted : engine.NothingStarted later
  remaining : ended.NothingStarted later

theorem Finished.step {engine ended later : GameEngine} (h : engine.Finished ended later)
    (op : Op) :
    engine.Finished ended (later.step op) := by
  obtain ⟨hover, hwinner⟩ := over_step h.isOver op
  have hnothing := nothingStarted_step hover
  exact ⟨hover, hwinner.trans h.winner, h.nothingStarted.trans hnothing,
    h.remaining.trans hnothing⟩

theorem finished_run {engine : GameEngine} {op : Op} (hover : (engine.step op).isGameOver = true)
    (ops : List Op) : engine.Finished (engine.step op) ((engine.step op).run ops) :=
  Transition.run_invariant _ (fun _ op h ↦ h.step op)
    ⟨hover, rfl, nothingStarted_step hover, .refl _⟩ ops

/-! ## One result for each game -/

def isGameEnded : GameEvent → Bool
  | .gameEnded _ => true
  | _ => false

/-- The results published since `events` were on the bus: none before the game is over. -/
def EndedOnce (events : List GameEvent) (engine : GameEngine) : Prop :=
  ∃ published, engine.eventBus = some (events ++ published) ∧
    published.countP isGameEnded ≤ if engine.isGameOver then 1 else 0

section EndedOnce

variable {events : List GameEvent} {engine : GameEngine}

theorem EndedOnce.congr (h : EndedOnce events engine) {later : GameEngine}
    (hbus : later.eventBus = engine.eventBus) (hover : later.isGameOver = engine.isGameOver) :
    EndedOnce events later := by
  rwa [EndedOnce, hbus, hover]

/-- Events that are no results can be published at any time. -/
theorem EndedOnce.append (h : EndedOnce events engine) {later : GameEngine} {more : List GameEvent}
    (hbus : later.eventBus = engine.eventBus.map (· ++ more))
    (hover : later.isGameOver = engine.isGameOver) (hmore : more.countP isGameEnded = 0) :
    EndedOnce events later := by
  obtain ⟨published, heq, hcount⟩ := h
  refine ⟨published ++ more, ?_, ?_⟩
  · rw [hbus, heq, Option.map_some, List.append_assoc]
  · rw [hover, List.countP_append, hmore, Nat.add_zero]
    exact hcount

theorem EndedOnce.requestMove (h : EndedOnce events engine) (fromPos toPos : Position) :
    EndedOnce events (engine.requestMove fromPos toPos).2 :=
  requestMove_induction (fun _ ↦ h.append rfl rfl rfl) h

theorem EndedOnce.endGame (h : EndedOnce events engine) (hover : engine.isGameOver = false)
    (winnerColor : Color) : EndedOnce events (engine.endGame winnerColor) := by
  obtain ⟨published, heq, hcount⟩ := h
  rw [hover, if_neg Bool.false_ne_true] at hcount
  refine ⟨published ++ [.gameEnded ⟨winnerColor⟩], ?_, ?_⟩
  · simp [GameEngine.endGame, publish, heq]
  · rw [List.countP_append, Nat.le_zero.1 hcount]
    exact le_rfl

theorem EndedOnce.checkGameOver (h : EndedOnce events engine) (completing : List Motion) :
    EndedOnce events (engine.checkGameOverFromCompletingMoves completing) := by
  rw [checkGameOver_eq]
  split
  · exact h
  · rename_i hover
    split
    · exact h
    · exact h.endGame (by simpa using hover) _

theorem EndedOnce.advanceTime (h : EndedOnce events engine) (ms : ℤ) :
    EndedOnce events (engine.advanceTime ms) := by
  have harrivals : EndedOnce events (engine.afterArrivals ms) := by
    apply (h.checkGameOver (engine.completing ms)).append (engine.eventBus_afterArrivals ms)
      (engine.isGameOver_afterArrivals ms)
    rw [List.countP_eq_zero]
    intro event hevent
    obtain ⟨resolution, -, rfl⟩ := List.mem_map.1 hevent
    cases resolution <;> exact Bool.false_ne_true
  have hpremoves : EndedOnce events
      ((engine.afterArrivals ms).processPremovesAfterAdvance (engine.completing ms)) :=
    processPremoves_induction (fun _ _ hlater ↦ hlater.congr rfl rfl)
      (fun _ fromPos toPos hlater ↦ hlater.requestMove fromPos toPos) harrivals _
  rw [advanceTime_eq]
  exact hpremoves.congr (eventBus_applyCooldown _ _) (isGameOver_applyCooldown _ _)

theorem EndedOnce.step (h : EndedOnce events engine) (op : Op) :
    EndedOnce events (engine.step op) := by
  apply step_induction
  · exact fun _ _ _ ↦ h.append rfl rfl rfl
  · exact fun _ _ ↦ h.append rfl rfl rfl
  · exact fun _ _ _ ↦ h.congr rfl rfl
  · exact fun ms ↦ h.advanceTime ms
  · intro winner hover
    obtain ⟨published, heq, hcount⟩ := h
    rw [hover, if_neg Bool.false_ne_true] at hcount
    exact ⟨published, heq, hcount.trans (Nat.zero_le _)⟩
  · exact h

theorem endedOnce_run (before : GameEngine) (hbus : before.eventBus = some events)
    (ops : List Op) : EndedOnce events (before.reset.run ops) :=
  Transition.run_invariant _ (fun _ op h ↦ h.step op)
    ⟨[], by rw [List.append_nil]; exact hbus, Nat.zero_le _⟩ ops

end EndedOnce

/-- Game over is final: whatever follows the operation that ended the game, the winner is there and
stays, every request is refused, nothing has been started since before that operation, and the
motions in flight are a sublist of those before it and of those after it; and between two resets at
most one result is published. -/
theorem gameOver_final (before : GameEngine) :
    (∀ past op, (before.reset.run (past ++ [op])).isGameOver = true →
      (before.reset.run (past ++ [op])).winner.isSome = true ∧
      ∀ later,
        (before.reset.run past).Finished (before.reset.run (past ++ [op]))
          (before.reset.run (past ++ op :: later)) ∧
        (∀ fromPos toPos,
          ((before.reset.run (past ++ op :: later)).requestMove fromPos toPos).1 = false) ∧
        ∀ pos, ((before.reset.run (past ++ op :: later)).requestJump pos).1 = false) ∧
    ∀ events, before.eventBus = some events → ∀ ops, EndedOnce events (before.reset.run ops) := by
  constructor
  · intro past op hover
    refine ⟨winner_isSome_of_over (reachable_run before _) hover, ?_⟩
    intro later
    have hended : before.reset.run (past ++ [op]) = (before.reset.run past).step op :=
      Transition.run_append _ _ past [op]
    have hlater : before.reset.run (past ++ op :: later) =
        ((before.reset.run past).step op).run later :=
      Transition.run_append _ _ past (op :: later)
    have hfinished := finished_run (hended ▸ hover) later
    rw [← hlater, ← hended] at hfinished
    refine ⟨hfinished, ?_, ?_⟩
    · intro fromPos toPos
      rw [requestMove_of_over hfinished.isOver]
    · intro pos
      rw [requestJump_of_over hfinished.isOver]
  · exact fun events hbus ops ↦ endedOnce_run before hbus ops

/-- A black rook that attacks the white king. -/
def lastMoveBoard : Board where
  cells := [[.of .king .white, .empty, .of .rook .black]]
  rectangular := by decide

/-- Once the rook has taken the king, nothing the players ask for is done. -/
theorem gameOver_final_rook_takes_king :
    (((reset { board := lastMoveBoard }).run
      [.requestMove ⟨0, 2⟩ ⟨0, 0⟩, .advanceTime 2000, .advanceTime 50]).requestJump ⟨0, 0⟩).1 =
        false := by
  have hfinal := (gameOver_final { board := lastMoveBoard }).1
    [.requestMove ⟨0, 2⟩ ⟨0, 0⟩] (.advanceTime 2000) (by decide)
  exact (hfinal.2 [.advanceTime 50]).2.2 ⟨0, 0⟩

end GameEngine

end KongFuChess.Engine
