import KongFuChess.Engine.Run

/-!
# An engine that plays later

Nothing an engine does depends on the time at which its clock was started. An engine that has the
board and the motions of another one, all of them started so much later by a clock that shows so
much more, accepts the same requests and makes the same moves. Only the time stamps of its events
and of its log differ.

An engine at rest, without motions and cooldowns, becomes such a copy of itself by waiting.
-/

namespace KongFuChess.Realtime

open Model

/-- The same motion, started so much later. -/
def Motion.delay (delta : ℤ) (motion : Motion) : Motion :=
  { motion with startedAtMs := motion.startedAtMs + delta }

section Delay

variable (delta : ℤ) (motion : Motion) (motions : List Motion)

@[simp]
theorem isExpired_delay (currentTimeMs : ℤ) :
    (motion.delay delta).isExpired (currentTimeMs + delta) = motion.isExpired currentTimeMs := by
  rw [Motion.isExpired, Motion.isExpired, decide_eq_decide]
  simp only [Motion.delay]
  omega

theorem motionLess_delay (a b : Motion) :
    motionLess (a.delay delta) (b.delay delta) = motionLess a b := by
  by_cases h : a.startedAtMs = b.startedAtMs <;> simp [motionLess, Motion.delay, h]

@[simp]
theorem isJumpActiveAt_delay (pos : Position) :
    isJumpActiveAt (motions.map (Motion.delay delta)) pos = isJumpActiveAt motions pos := by
  rw [isJumpActiveAt, isJumpActiveAt, List.any_map]
  rfl

theorem completingMoves_delay (currentTimeMs : ℤ) :
    completingMoves (motions.map (Motion.delay delta)) (currentTimeMs + delta) =
      (completingMoves motions currentTimeMs).map (Motion.delay delta) := by
  rw [completingMoves, completingMoves, List.filter_map]
  refine congrArg (List.map _) (List.filter_congr fun motion _ ↦ ?_)
  rw [Function.comp_apply, isExpired_delay]
  rfl

theorem removeExpiredMotions_delay (type : MotionType) (currentTimeMs : ℤ) :
    removeExpiredMotions (motions.map (Motion.delay delta)) type (currentTimeMs + delta) =
      (removeExpiredMotions motions type currentTimeMs).map (Motion.delay delta) := by
  rw [removeExpiredMotions, removeExpiredMotions, List.filter_map]
  refine congrArg (List.map _) (List.filter_congr fun motion _ ↦ ?_)
  rw [Function.comp_apply, isExpired_delay]
  rfl

theorem insertionSort_delay :
    (motions.map (Motion.delay delta)).insertionSort (fun a b ↦ motionLess b a = false) =
      (motions.insertionSort fun a b ↦ motionLess b a = false).map (Motion.delay delta) := by
  refine (List.map_insertionSort (r := fun a b ↦ motionLess b a = false)
    (s := fun a b ↦ motionLess b a = false) (Motion.delay delta) motions ?_).symm
  intro a _ b _
  rw [motionLess_delay]

theorem landJump_delay (currentTimeMs : ℤ) (board : Board) :
    landJump (currentTimeMs + delta) board (motion.delay delta) =
      landJump currentTimeMs board motion := by
  simp only [landJump, isExpired_delay]
  rfl

/-- Ticks that differ at most in their resolutions. -/
def SameSquares (left right : Tick) : Prop :=
  left.board = right.board ∧ left.arrivedThisTick = right.arrivedThisTick

theorem SameSquares.ite {left left' right right' : Tick} {P Q : Prop} [Decidable P] [Decidable Q]
    (hiff : P ↔ Q) (h : SameSquares left right) (h' : SameSquares left' right') :
    SameSquares (if P then left else left') (if Q then right else right') := by
  by_cases hcondition : P
  · rwa [if_pos hcondition, if_pos (hiff.1 hcondition)]
  · rwa [if_neg hcondition, if_neg fun hright ↦ hcondition (hiff.2 hright)]

/-- The time at which a motion was started shows in its resolutions only. -/
theorem sameSquares_resolveMoveArrival {left right : Tick} (h : SameSquares left right) :
    SameSquares (resolveMoveArrival motions left motion)
      (resolveMoveArrival (motions.map (Motion.delay delta)) right (motion.delay delta)) := by
  obtain ⟨board, arrived, resolutions⟩ := left
  obtain ⟨board', arrived', resolutions'⟩ := right
  obtain ⟨rfl, rfl⟩ := h
  have hjump := isJumpActiveAt_delay delta motions motion.destination
  refine .ite Iff.rfl ⟨rfl, rfl⟩ (.ite Iff.rfl ⟨rfl, rfl⟩ (.ite Iff.rfl ⟨rfl, rfl⟩ ?_))
  refine .ite ?_ ⟨rfl, rfl⟩ (.ite Iff.rfl ⟨rfl, rfl⟩ ⟨rfl, rfl⟩)
  exact (congrArg (fun active ↦ (!(board.cell motion.destination).isEmpty && active) = true)
    hjump).symm.to_iff

end Delay

/-- No piece is on a cooldown. -/
def rested (board : Board) : Bool :=
  board.cells.all fun row ↦ row.all fun piece ↦
    piece.moveCooldownRemainingMs = 0 && piece.jumpCooldownRemainingMs = 0

theorem decreaseAllCooldowns_of_rested {board : Board} (h : rested board = true) {ms : ℤ}
    (hms : 0 ≤ ms) : decreaseAllCooldowns board ms = board := by
  simp only [rested, List.all_eq_true, Bool.and_eq_true, decide_eq_true_eq] at h
  have hrows : ∀ row ∈ board.cells, row.map (·.decreaseCooldown ms) = row := by
    intro row hrow
    rw [List.map_congr_left (g := id), List.map_id]
    intro piece hpiece
    obtain ⟨hmove, hjump⟩ := h row hrow piece hpiece
    obtain ⟨type, color, moveRemaining, moveTotal, jumpRemaining, jumpTotal, hasMoved⟩ := piece
    obtain rfl : moveRemaining = 0 := hmove
    obtain rfl : jumpRemaining = 0 := hjump
    simp [Piece.decreaseCooldown, not_lt.2 hms]
  apply Grid.ext
  change board.cells.map (List.map _) = board.cells
  rw [List.map_congr_left (g := id) hrows, List.map_id]

end KongFuChess.Realtime

namespace KongFuChess.Engine

open Model Realtime Rules Events

namespace GameEngine

/-! ## Verdicts are final -/

theorem over_advanceTime {engine : GameEngine} (hover : engine.isGameOver = true) (ms : ℤ) :
    (engine.advanceTime ms).isGameOver = true ∧ (engine.advanceTime ms).winner = engine.winner := by
  rw [isGameOver_advanceTime, winner_advanceTime, checkGameOver_eq, if_pos hover]
  exact ⟨hover, rfl⟩

/-- An engine whose game is over accepts no request. -/
theorem not_over_of_answer {engine : GameEngine} {op : Op} (h : engine.answer op = some true) :
    engine.isGameOver = false := by
  cases op with
  | requestMove fromPos toPos =>
    rcases engine.requestMove_cases fromPos toPos with heq | ⟨haccepted, -⟩
    · simp [answer, perform, heq] at h
    · exact haccepted.not_over
  | requestJump pos =>
    rcases engine.requestJump_cases pos with heq | ⟨haccepted, -⟩
    · simp [answer, perform, heq] at h
    · exact haccepted.not_over
  | queuePremove | advanceTime | remoteGameEnded => simp [answer, perform] at h

/-- Starting a motion does not end the game. -/
theorem isGameOver_step_of_answer {engine : GameEngine} {op : Op}
    (h : engine.answer op = some true) : (engine.step op).isGameOver = false := by
  have hover := not_over_of_answer h
  cases op with
  | requestMove fromPos toPos =>
    exact requestMove_induction (P := fun later ↦ later.isGameOver = false) (fun _ ↦ hover) hover
  | requestJump pos =>
    exact requestJump_induction (P := fun later ↦ later.isGameOver = false) (fun _ ↦ hover) hover
  | queuePremove | advanceTime | remoteGameEnded => simp [answer, perform] at h

/-! ## Delayed copies -/

/-- The copy plays what the engine plays, so much later; neither has premoves. -/
structure Replays (delta : ℤ) (engine copy : GameEngine) : Prop where
  board : copy.board = engine.board
  elapsedMs : copy.elapsedMs = engine.elapsedMs + delta
  activeMotions : copy.activeMotions = engine.activeMotions.map (Motion.delay delta)
  nextMotionId : copy.nextMotionId = engine.nextMotionId
  noPremoves : ∀ source, engine.premoves source = none
  noPremoves' : ∀ source, copy.premoves source = none

namespace Replays

variable {delta : ℤ} {engine copy : GameEngine}

theorem refl (hpremoves : ∀ source, engine.premoves source = none) : Replays 0 engine engine where
  board := rfl
  elapsedMs := (add_zero _).symm
  activeMotions := by
    rw [List.map_congr_left (g := id), List.map_id]
    intro motion _
    simp [Motion.delay]
  nextMotionId := rfl
  noPremoves := hpremoves
  noPremoves' := hpremoves

theorem symm (h : Replays delta engine copy) : Replays (-delta) copy engine where
  board := h.board.symm
  elapsedMs := by rw [h.elapsedMs, add_neg_cancel_right]
  activeMotions := by
    rw [h.activeMotions, List.map_map, List.map_congr_left (g := id), List.map_id]
    intro motion _
    simp [Motion.delay]
  nextMotionId := h.nextMotionId.symm
  noPremoves := h.noPremoves'
  noPremoves' := h.noPremoves

theorem trans {delta' : ℤ} {third : GameEngine} (h : Replays delta engine copy)
    (h' : Replays delta' copy third) : Replays (delta + delta') engine third where
  board := h'.board.trans h.board
  elapsedMs := by rw [h'.elapsedMs, h.elapsedMs, add_assoc]
  activeMotions := by
    rw [h'.activeMotions, h.activeMotions, List.map_map]
    refine List.map_congr_left fun motion _ ↦ ?_
    simp [Motion.delay, add_assoc]
  nextMotionId := h'.nextMotionId.trans h.nextMotionId
  noPremoves := h.noPremoves
  noPremoves' := h'.noPremoves'

theorem isBusyAt (h : Replays delta engine copy) (pos : Position) :
    copy.isBusyAt pos = engine.isBusyAt pos := by
  rw [GameEngine.isBusyAt, h.activeMotions, List.any_map]
  rfl

theorem start (h : Replays delta engine copy) (motion : Motion) (event event' : GameEvent) :
    Replays delta (engine.start motion event) (copy.start (motion.delay delta) event') where
  board := h.board
  elapsedMs := h.elapsedMs
  activeMotions := by
    rw [activeMotions_start, activeMotions_start, h.activeMotions, List.map_append, List.map_cons,
      List.map_nil]
  nextMotionId := by rw [nextMotionId_start, nextMotionId_start, h.nextMotionId]
  noPremoves := h.noPremoves
  noPremoves' := h.noPremoves'

/-- The copy accepts the requests that the engine accepts, unless its game is over. -/
theorem accept (h : Replays delta engine copy) {op : Op} (haccepted : engine.answer op = some true)
    (hover : copy.isGameOver = false) :
    copy.answer op = some true ∧ Replays delta (engine.step op) (copy.step op) := by
  cases op with
  | requestMove fromPos toPos =>
    rcases engine.requestMove_cases fromPos toPos with heq | ⟨hguards, heq⟩
    · simp [answer, perform, heq] at haccepted
    have hcopy : copy.requestMove fromPos toPos =
        (true, copy.start ((engine.newMove fromPos toPos).delay delta)
          (.moveStarted (copy.moveStartedEvent fromPos toPos))) := by
      have hvalid := hguards.valid
      rw [← h.board] at hvalid
      have hmotion : copy.newMove fromPos toPos = (engine.newMove fromPos toPos).delay delta := by
        simp only [newMove, Motion.delay, h.board, h.elapsedMs, h.nextMotionId]
      rw [requestMove, if_neg (by simp [hover]),
        if_neg (by simp [h.isBusyAt, hguards.not_busy]), if_neg (by simp [hvalid]), hmotion]
    rw [step_requestMove, step_requestMove, answer, perform, hcopy, heq]
    exact ⟨rfl, h.start _ _ _⟩
  | requestJump pos =>
    rcases engine.requestJump_cases pos with heq | ⟨hguards, heq⟩
    · simp [answer, perform, heq] at haccepted
    have hcopy : copy.requestJump pos =
        (true, copy.start ((engine.newJump pos).delay delta)
          (.jumpStarted (copy.jumpStartedEvent pos))) := by
      have hrested := hguards.rested
      have hmotion : copy.newJump pos = (engine.newJump pos).delay delta := by
        simp only [newJump, Motion.delay, h.board, h.elapsedMs, h.nextMotionId]
      rw [requestJump, if_neg (by simp [hover]), h.board, if_neg (by simp [hguards.inBounds]),
        hmotion]
      simp only
      rw [if_neg (by simp [h.isBusyAt, hguards.not_busy, hguards.occupied, hrested])]
    rw [step_requestJump, step_requestJump, answer, perform, hcopy, heq]
    exact ⟨rfl, h.start _ _ _⟩
  | queuePremove | advanceTime | remoteGameEnded => simp [answer, perform] at haccepted

/-! ### Playing on -/

theorem completing (h : Replays delta engine copy) (ms : ℤ) :
    copy.completing ms = (engine.completing ms).map (Motion.delay delta) := by
  rw [GameEngine.completing, GameEngine.completing, h.activeMotions, h.elapsedMs, add_right_comm,
    completingMoves_delay]

theorem sameSquares_arrivalTick (h : Replays delta engine copy) (ms : ℤ) :
    SameSquares (engine.arrivalTick ms) (copy.arrivalTick ms) := by
  rw [arrivalTick, arrivalTick, arrivals, arrivals, h.completing, insertionSort_delay,
    h.activeMotions]
  refine Transition.run_lockstep (R := SameSquares)
    (fun _ _ motion hsame ↦ sameSquares_resolveMoveArrival delta motion _ hsame) ?_ _
  exact ⟨by rw [arrivalStart, arrivalStart, h.board], rfl⟩

theorem afterArrivals (h : Replays delta engine copy) (ms : ℤ) :
    Replays delta (engine.afterArrivals ms) (copy.afterArrivals ms) where
  board := by
    have hland : ∀ (motions : List Motion) (board : Board),
        (motions.map (Motion.delay delta)).foldl (landJump (copy.elapsedMs + ms)) board =
          motions.foldl (landJump (engine.elapsedMs + ms)) board := by
      intro motions board
      simp only [h.elapsedMs, add_right_comm _ delta, List.foldl_map, landJump_delay]
    rw [board_afterArrivals, board_afterArrivals, h.completing, List.isEmpty_map,
      ← (h.sameSquares_arrivalTick ms).1, ← hland, h.activeMotions, h.elapsedMs, add_right_comm,
      removeExpiredMotions_delay]
    split <;> rfl
  elapsedMs := by
    rw [elapsedMs_afterArrivals, elapsedMs_afterArrivals, h.elapsedMs, add_right_comm]
  activeMotions := by
    rw [activeMotions_afterArrivals, activeMotions_afterArrivals, h.activeMotions, h.elapsedMs,
      List.filter_map, add_right_comm]
    refine congrArg (List.map _) (List.filter_congr fun motion _ ↦ ?_)
    rw [Function.comp_apply, isExpired_delay]
  nextMotionId := by
    rw [nextMotionId_afterArrivals, nextMotionId_afterArrivals, h.nextMotionId]
  noPremoves := by
    rw [premoves_afterArrivals]
    exact h.noPremoves
  noPremoves' := by
    rw [premoves_afterArrivals]
    exact h.noPremoves'

theorem applyCooldown (h : Replays delta engine copy) (motion : Motion) :
    Replays delta (engine.applyCooldownAfterArrival motion)
      (copy.applyCooldownAfterArrival (motion.delay delta)) := by
  simp only [applyCooldownAfterArrival, Motion.delay, h.board, h.isBusyAt]
  split
  · exact h
  · split
    · exact h
    · split
      · exact h
      · split
        · exact h
        · exact { h with board := rfl }

/-- The copy moves on as the engine does. -/
theorem advanceTime (h : Replays delta engine copy) (ms : ℤ) :
    Replays delta (engine.advanceTime ms) (copy.advanceTime ms) := by
  rw [advanceTime_of_none h.noPremoves, advanceTime_of_none h.noPremoves', h.completing]
  exact Transition.run_lockstep (fun _ _ motion hboth ↦ hboth.applyCooldown motion)
    (h.afterArrivals ms) (engine.completing ms)

theorem verdict (h : Replays delta engine copy) (motion : Motion) :
    copy.verdict (motion.delay delta) = engine.verdict motion := by
  simp only [GameEngine.verdict, h.board, h.activeMotions, isJumpActiveAt_delay]
  rfl

/-- Engine and copy come to the same verdict, if neither has come to one before. -/
theorem isGameOver_advanceTime (h : Replays delta engine copy) (ms : ℤ)
    (hover : engine.isGameOver = false) (hover' : copy.isGameOver = false) :
    (copy.advanceTime ms).isGameOver = (engine.advanceTime ms).isGameOver := by
  have hfound : (copy.completing ms).findSome? copy.verdict =
      (engine.completing ms).findSome? engine.verdict := by
    rw [h.completing, List.findSome?_map]
    exact congrArg (List.findSome? · _) (funext h.verdict)
  rw [GameEngine.isGameOver_advanceTime, GameEngine.isGameOver_advanceTime, checkGameOver_eq,
    checkGameOver_eq, if_neg (by simp [hover']), if_neg (by simp [hover]), hfound]
  cases (engine.completing ms).findSome? engine.verdict with
  | none => exact hover'.trans hover.symm
  | some winnerColor => rfl

end Replays

/-! ## Engines at rest -/

/-- Nothing is in progress: no motion is active and no piece is on a cooldown. -/
def quiet (engine : GameEngine) : Bool := engine.activeMotions.isEmpty && rested engine.board

theorem Replays.quiet_eq {delta : ℤ} {engine copy : GameEngine}
    (h : Replays delta engine copy) : copy.quiet = engine.quiet := by
  rw [quiet, quiet, h.activeMotions, h.board, List.isEmpty_map]

section Quiet

variable {engine : GameEngine} {ms : ℤ}

theorem activeMotions_of_quiet (h : engine.quiet = true) : engine.activeMotions = [] := by
  simp only [quiet, Bool.and_eq_true, List.isEmpty_iff] at h
  exact h.1

theorem completing_of_activeMotions (h : engine.activeMotions = []) (ms : ℤ) :
    engine.completing ms = [] := by
  rw [completing, h]
  rfl

/-- Without motions only the cooldowns run on. -/
theorem advanceTime_of_activeMotions (h : engine.activeMotions = [])
    (hpremoves : ∀ source, engine.premoves source = none) (ms : ℤ) :
    (engine.advanceTime ms).board = decreaseAllCooldowns engine.board ms ∧
      (engine.advanceTime ms).activeMotions = [] := by
  have hcompleting := completing_of_activeMotions h ms
  rw [advanceTime_of_none hpremoves, hcompleting]
  constructor
  · change (engine.afterArrivals ms).board = _
    rw [board_afterArrivals, hcompleting, h, arrivalTick, arrivals, hcompleting]
    rfl
  · change (engine.afterArrivals ms).activeMotions = _
    rw [activeMotions_afterArrivals, h]
    rfl

/-- An engine at rest becomes a delayed copy of itself. -/
theorem replays_advanceTime_of_quiet (h : engine.quiet = true)
    (hpremoves : ∀ source, engine.premoves source = none) (hms : 0 ≤ ms) :
    Replays ms engine (engine.advanceTime ms) := by
  have hactive := activeMotions_of_quiet h
  obtain ⟨hboard, hactive'⟩ := advanceTime_of_activeMotions hactive hpremoves ms
  simp only [quiet, Bool.and_eq_true] at h
  rw [decreaseAllCooldowns_of_rested h.2 hms] at hboard
  exact
    { board := hboard
      elapsedMs := elapsedMs_advanceTime engine ms
      activeMotions := by rw [hactive', hactive, List.map_nil]
      nextMotionId := by
        rw [advanceTime_of_none hpremoves, nextMotionId_applyCooldown, nextMotionId_afterArrivals]
      noPremoves := hpremoves
      noPremoves' := by
        rwa [advanceTime_of_none hpremoves, premoves_applyCooldown, premoves_afterArrivals] }

/-- Waiting at rest does not end the game. -/
theorem isGameOver_of_activeMotions (h : engine.activeMotions = []) (ms : ℤ) :
    (engine.advanceTime ms).isGameOver = engine.isGameOver := by
  rw [isGameOver_advanceTime, completing_of_activeMotions h, checkGameOver_eq]
  simp only [List.findSome?_nil, ite_self]

end Quiet

end GameEngine

end KongFuChess.Engine
