import KongFuChess.Engine.Turns
import KongFuChess.Symmetry.Arrivals

/-!
# Colour fairness

Two engines mirror each other when their boards, motions, premoves, verdicts and scores do. Every
operation answers the same in both when its squares and colours are mirrored, and keeps them
mirrored; so whatever happens to White in one run happens to Black in the mirrored run.
-/

namespace KongFuChess.Engine

open Model Realtime Rules Events

def Premove.mirror (rows : ℕ) (premove : Premove) : Premove where
  fromPos := premove.fromPos.mirror rows
  toPos := premove.toPos.mirror rows

def Op.mirror (rows : ℕ) : Op → Op
  | .requestMove fromPos toPos => .requestMove (fromPos.mirror rows) (toPos.mirror rows)
  | .requestJump pos => .requestJump (pos.mirror rows)
  | .queuePremove key fromPos toPos =>
    .queuePremove (key.mirror rows) (fromPos.mirror rows) (toPos.mirror rows)
  | .advanceTime ms => .advanceTime ms
  | .remoteGameEnded winner => .remoteGameEnded winner.opposite

/-- The scores of the second log are those of the first with the sides exchanged. -/
def MoveLog.Mirrors (log mirrored : MoveLog) : Prop :=
  ∀ color, mirrored.score color.opposite = log.score color

/-- A mirrored resolution scores the same for the other side. -/
theorem MoveLog.Mirrors.record {log mirrored : MoveLog} (h : log.Mirrors mirrored) (rows : ℕ)
    (resolution : MoveResolution) :
    (log.record resolution).Mirrors (mirrored.record (resolution.mirror rows)) := by
  intro color
  rw [MoveLog.score_record, MoveLog.score_record, h color]
  cases resolution with
  | completedMove completed =>
    simp only [MoveResolution.mirror, CompletedMoveEvent.mirror, MoveLog.pointsOf,
      Color.opposite_eq_iff, Color.opposite_opposite]
  | jumpCapture jumpCapture =>
    simp only [MoveResolution.mirror, JumpCaptureEvent.mirror, MoveLog.pointsOf,
      Color.opposite_eq_iff, Color.opposite_opposite]

theorem MoveLog.Mirrors.foldl_record {log mirrored : MoveLog} (h : log.Mirrors mirrored) (rows : ℕ)
    (resolutions : List MoveResolution) :
    (resolutions.foldl MoveLog.record log).Mirrors
      ((resolutions.map (MoveResolution.mirror rows)).foldl MoveLog.record mirrored) :=
  Transition.run_lockstep (fun _ _ resolution hlogs ↦ hlogs.record rows resolution) h resolutions

namespace GameEngine

/-- Everything that fairness compares. -/
structure Mirrors (rows : ℕ) (engine mirrored : GameEngine) : Prop where
  sameRows : engine.board.rows = rows
  board : mirrored.board = engine.board.mirror
  elapsedMs : mirrored.elapsedMs = engine.elapsedMs
  activeMotions : mirrored.activeMotions = engine.activeMotions.map (Motion.mirror rows)
  premoves : ∀ source, mirrored.premoves (source.mirror rows) =
    (engine.premoves source).map (Premove.mirror rows)
  nextMotionId : mirrored.nextMotionId = engine.nextMotionId
  isGameOver : mirrored.isGameOver = engine.isGameOver
  winner : mirrored.winner = engine.winner.map Color.opposite
  moveLog : engine.moveLog.Mirrors mirrored.moveLog

variable {rows : ℕ} {engine mirrored : GameEngine}

theorem Mirrors.isBusyAt (h : Mirrors rows engine mirrored) (pos : Position) :
    mirrored.isBusyAt (pos.mirror rows) = engine.isBusyAt pos := by
  have hsquare : ∀ motion : Motion, ((motion.mirror rows).source = pos.mirror rows) =
      (motion.source = pos) := fun _ ↦ propext (Position.mirror_inj rows)
  rw [Bool.eq_iff_iff, GameEngine.isBusyAt, GameEngine.isBusyAt, h.activeMotions]
  simp only [List.any_map, List.any_eq_true, Function.comp_def, decide_eq_true_eq, hsquare]

theorem Mirrors.validateMove (h : Mirrors rows engine mirrored) (fromPos toPos : Position) :
    validateMove mirrored.board (fromPos.mirror rows) (toPos.mirror rows) =
      validateMove engine.board fromPos toPos := by
  rw [h.board, ← h.sameRows, validateMove_mirror]

theorem Mirrors.cell (h : Mirrors rows engine mirrored) (pos : Position) :
    mirrored.board.cell (pos.mirror rows) = (engine.board.cell pos).mirror := by
  rw [h.board, Board.cell_mirror_mirror h.sameRows]

theorem Mirrors.inBounds (h : Mirrors rows engine mirrored) (pos : Position) :
    mirrored.board.inBounds (pos.mirror rows) = engine.board.inBounds pos := by
  rw [h.board, Board.inBounds_mirror, h.sameRows, Position.mirror_mirror]

/-! ## Requests -/

theorem Mirrors.start (h : Mirrors rows engine mirrored) (motion : Motion)
    (event event' : GameEvent) :
    Mirrors rows (engine.start motion event) (mirrored.start (motion.mirror rows) event') where
  sameRows := h.sameRows
  board := h.board
  elapsedMs := h.elapsedMs
  activeMotions := by
    rw [activeMotions_start, activeMotions_start, h.activeMotions, List.map_append, List.map_cons,
      List.map_nil]
  premoves := h.premoves
  nextMotionId := by
    rw [nextMotionId_start, nextMotionId_start, h.nextMotionId]
  isGameOver := h.isGameOver
  winner := h.winner
  moveLog := h.moveLog

theorem Mirrors.newMove (h : Mirrors rows engine mirrored) {fromPos toPos : Position}
    (hoccupied : (engine.board.cell fromPos).isEmpty = false) :
    mirrored.newMove (fromPos.mirror rows) (toPos.mirror rows) =
      (engine.newMove fromPos toPos).mirror rows := by
  simp only [GameEngine.newMove, h.cell, h.elapsedMs, h.nextMotionId, distance_mirror,
    Piece.type_mirror, Piece.color_mirror hoccupied]
  rfl

theorem Mirrors.newJump (h : Mirrors rows engine mirrored) {pos : Position}
    (hoccupied : (engine.board.cell pos).isEmpty = false) :
    mirrored.newJump (pos.mirror rows) = (engine.newJump pos).mirror rows := by
  simp only [GameEngine.newJump, h.cell, h.elapsedMs, h.nextMotionId, Piece.type_mirror,
    Piece.color_mirror hoccupied]
  rfl

theorem Mirrors.requestMove (h : Mirrors rows engine mirrored) (fromPos toPos : Position) :
    (mirrored.requestMove (fromPos.mirror rows) (toPos.mirror rows)).1 =
        (engine.requestMove fromPos toPos).1 ∧
      Mirrors rows (engine.requestMove fromPos toPos).2
        (mirrored.requestMove (fromPos.mirror rows) (toPos.mirror rows)).2 := by
  simp only [GameEngine.requestMove, h.isGameOver, h.isBusyAt, h.validateMove]
  split
  · exact ⟨rfl, h⟩
  · split
    · exact ⟨rfl, h⟩
    · split
      · exact ⟨rfl, h⟩
      · rename_i hvalid
        have hoccupied := (validated_of_validateMove (by simpa using hvalid)).occupied
        rw [h.newMove hoccupied]
        exact ⟨rfl, h.start _ _ _⟩

theorem Mirrors.requestJump (h : Mirrors rows engine mirrored) (pos : Position) :
    (mirrored.requestJump (pos.mirror rows)).1 = (engine.requestJump pos).1 ∧
      Mirrors rows (engine.requestJump pos).2 (mirrored.requestJump (pos.mirror rows)).2 := by
  simp only [GameEngine.requestJump, h.isGameOver, h.inBounds, h.cell, h.isBusyAt,
    Piece.isEmpty_mirror, Piece.jumpCooldownRemainingMs_mirror]
  split
  · exact ⟨rfl, h⟩
  · split
    · exact ⟨rfl, h⟩
    · split
      · exact ⟨rfl, h⟩
      · rename_i hguard
        simp only [Bool.or_eq_true, not_or, Bool.not_eq_true] at hguard
        rw [h.newJump hguard.1.1]
        exact ⟨rfl, h.start _ _ _⟩

theorem Mirrors.setPremoves (h : Mirrors rows engine mirrored)
    {left right : Position → Option Premove}
    (hpremoves : ∀ source, right (source.mirror rows) = (left source).map (Premove.mirror rows)) :
    Mirrors rows { engine with premoves := left } { mirrored with premoves := right } :=
  { h with premoves := hpremoves }

theorem Mirrors.queuePremove (h : Mirrors rows engine mirrored) (key fromPos toPos : Position) :
    Mirrors rows (engine.queuePremove key fromPos toPos)
      (mirrored.queuePremove (key.mirror rows) (fromPos.mirror rows) (toPos.mirror rows)) := by
  refine h.setPremoves fun source ↦ ?_
  simp only [Position.mirror_inj]
  split
  · rfl
  · exact h.premoves source

theorem Mirrors.clearPremoveAt (h : Mirrors rows engine mirrored) (source : Position) :
    Mirrors rows (engine.clearPremoveAt source)
      (mirrored.clearPremoveAt (source.mirror rows)) := by
  refine h.setPremoves fun key ↦ ?_
  simp only [Position.mirror_inj]
  split
  · rfl
  · exact h.premoves key

theorem Mirrors.endGame (h : Mirrors rows engine mirrored) (winnerColor : Color) :
    Mirrors rows (engine.endGame winnerColor) (mirrored.endGame winnerColor.opposite) :=
  { h with
    isGameOver := rfl
    winner := rfl }

/-! ## The stages of `advanceTime` -/

theorem Mirrors.completing (h : Mirrors rows engine mirrored) (ms : ℤ) :
    mirrored.completing ms = (engine.completing ms).map (Motion.mirror rows) := by
  rw [GameEngine.completing, GameEngine.completing, h.activeMotions, h.elapsedMs,
    completingMoves_mirror]

theorem Mirrors.verdict (h : Mirrors rows engine mirrored) (motion : Motion) :
    mirrored.verdict (motion.mirror rows) = (engine.verdict motion).map Color.opposite := by
  have htype : (motion.mirror rows).type = motion.type := rfl
  cases hmotion : motion.type with
  | jump => simp [GameEngine.verdict, htype, hmotion]
  | move =>
    by_cases hempty : (engine.board.cell motion.source).isEmpty = true
    · simp [GameEngine.verdict, h.cell, hempty]
    · have hfull : (engine.board.cell motion.source).isEmpty = false := by simpa using hempty
      simp only [GameEngine.verdict, htype, hmotion, source_mirror, destination_mirror _ hmotion,
        h.cell, h.activeMotions, isJumpActiveAt_mirror, Piece.isEmpty_mirror, Piece.type_mirror,
        Piece.color_mirror hfull, Piece.isFriendly_mirror, hfull]
      simp only [ne_eq, not_true_eq_false, decide_false, Bool.or_self, Bool.false_eq_true, if_false]
      split
      · rfl
      · split <;> rfl

theorem findSome?_map_mirror (h : Mirrors rows engine mirrored) (motions : List Motion) :
    (motions.map (Motion.mirror rows)).findSome? mirrored.verdict =
      (motions.findSome? engine.verdict).map Color.opposite := by
  induction motions with
  | nil => rfl
  | cons motion rest ih =>
    rw [List.map_cons, List.findSome?_cons, List.findSome?_cons, h.verdict]
    cases engine.verdict motion with
    | none => exact ih
    | some winnerColor => rfl

theorem Mirrors.checkGameOver (h : Mirrors rows engine mirrored) (completing : List Motion) :
    Mirrors rows (engine.checkGameOverFromCompletingMoves completing)
      (mirrored.checkGameOverFromCompletingMoves (completing.map (Motion.mirror rows))) := by
  rw [checkGameOver_eq, checkGameOver_eq, h.isGameOver, findSome?_map_mirror h]
  split
  · exact h
  · cases completing.findSome? engine.verdict with
    | none => exact h
    | some winnerColor => exact h.endGame winnerColor

theorem Mirrors.arrivals (h : Mirrors rows engine mirrored) (ms : ℤ) :
    mirrored.arrivals ms = (engine.arrivals ms).map (Motion.mirror rows) := by
  rw [GameEngine.arrivals, GameEngine.arrivals, h.completing, insertionSort_mirror]

theorem Mirrors.arrivalTick (h : Mirrors rows engine mirrored) (hlife : engine.Lifecycle) (ms : ℤ) :
    mirrored.arrivalTick ms = (engine.arrivalTick ms).mirror rows := by
  have hstart : mirrored.arrivalStart ms = (engine.arrivalStart ms).mirror rows := by
    simp only [GameEngine.arrivalStart, Tick.mirror, h.board, mirror_decreaseAllCooldowns,
      List.map_nil]
  rw [GameEngine.arrivalTick, GameEngine.arrivalTick, h.arrivals, h.activeMotions, hstart]
  apply foldl_resolveMoveArrival_mirror
  · exact ((sameKinds_decreaseAllCooldowns engine.board ms).rows).trans h.sameRows
  · intro motion hmem
    rw [hlife.arrivals_eq] at hmem
    exact ⟨(mem_completing.1 hmem).2.1, hlife.onBoard_decreased hmem⟩

theorem Mirrors.afterArrivals (h : Mirrors rows engine mirrored) (hlife : engine.Lifecycle)
    (ms : ℤ) : Mirrors rows (engine.afterArrivals ms) (mirrored.afterArrivals ms) := by
  have htick := h.arrivalTick hlife ms
  have hrows : (engine.arrivalTick ms).board.rows = rows :=
    (hlife.frame_arrivalTick ms).rows.trans h.sameRows
  have hchecked := h.checkGameOver (engine.completing ms)
  rw [← h.completing] at hchecked
  exact
    { sameRows := by
        rw [(sameKinds_afterArrivals engine ms).rows, hrows]
      board := by
        rw [board_afterArrivals, board_afterArrivals, h.completing, h.activeMotions, h.elapsedMs,
          htick, ← foldl_landJump_mirror _ _ hrows, List.isEmpty_map]
        split
        · rw [removeExpiredMotions_mirror]
          rfl
        · rfl
      elapsedMs := by
        rw [elapsedMs_afterArrivals, elapsedMs_afterArrivals, h.elapsedMs]
      activeMotions := by
        rw [activeMotions_afterArrivals, activeMotions_afterArrivals, h.activeMotions, h.elapsedMs,
          List.filter_map]
        rfl
      premoves := by
        rw [premoves_afterArrivals, premoves_afterArrivals]
        exact h.premoves
      nextMotionId := by
        rw [nextMotionId_afterArrivals, nextMotionId_afterArrivals, h.nextMotionId]
      isGameOver := by
        rw [isGameOver_afterArrivals, isGameOver_afterArrivals, hchecked.isGameOver]
      winner := by
        rw [winner_afterArrivals, winner_afterArrivals, hchecked.winner]
      moveLog := by
        rw [moveLog_afterArrivals, moveLog_afterArrivals, htick]
        exact h.moveLog.foldl_record rows _ }

theorem Mirrors.tryExecutePremove (h : Mirrors rows engine mirrored)
    (moveSource arrival : Position) :
    Mirrors rows (engine.tryExecutePremove moveSource arrival)
      (mirrored.tryExecutePremove (moveSource.mirror rows) (arrival.mirror rows)) := by
  have hpremove := h.premoves moveSource
  simp only [GameEngine.tryExecutePremove]
  cases hqueued : engine.premoves moveSource with
  | none =>
    rw [hpremove, hqueued]
    exact h
  | some premove =>
    have hclear := h.clearPremoveAt moveSource
    rw [hpremove, hqueued]
    simp only [Option.map_some, Premove.mirror, ne_eq, Position.mirror_inj, hclear.validateMove]
    split
    · exact hclear
    · split
      · exact hclear
      · exact (hclear.requestMove arrival premove.toPos).2

theorem Mirrors.processPremove (h : Mirrors rows engine mirrored) (motion : Motion) :
    Mirrors rows (engine.processPremoveAfterAdvance motion)
      (mirrored.processPremoveAfterAdvance (motion.mirror rows)) := by
  have htype : (motion.mirror rows).type = motion.type := rfl
  cases hmotion : motion.type with
  | jump => simpa [processPremoveAfterAdvance, htype, hmotion] using h
  | move =>
    simp only [processPremoveAfterAdvance, htype, hmotion, source_mirror,
      destination_mirror _ hmotion, h.cell, Piece.isEmpty_mirror]
    simp only [ne_eq, not_true_eq_false, if_false]
    split
    · exact h.clearPremoveAt _
    · split
      · exact h.clearPremoveAt _
      · exact h.tryExecutePremove _ _

theorem Mirrors.processPremoves (h : Mirrors rows engine mirrored) (completing : List Motion) :
    Mirrors rows (engine.processPremovesAfterAdvance completing)
      (mirrored.processPremovesAfterAdvance (completing.map (Motion.mirror rows))) := by
  rw [processPremovesAfterAdvance, processPremovesAfterAdvance, h.isGameOver]
  split
  · exact h
  · exact Transition.run_lockstep (fun _ _ motion hboth ↦ hboth.processPremove motion) h completing

theorem Mirrors.applyCooldown (h : Mirrors rows engine mirrored) (motion : Motion) :
    Mirrors rows (engine.applyCooldownAfterArrival motion)
      (mirrored.applyCooldownAfterArrival (motion.mirror rows)) := by
  have htype : (motion.mirror rows).type = motion.type := rfl
  cases hmotion : motion.type with
  | jump => simpa [applyCooldownAfterArrival, htype, hmotion] using h
  | move =>
    simp only [applyCooldownAfterArrival, htype, hmotion, destination_mirror _ hmotion,
      h.inBounds, h.cell, h.isBusyAt, Piece.isEmpty_mirror, ← Piece.mirror_setMoveCooldown]
    simp only [ne_eq, not_true_eq_false, if_false]
    split
    · exact h
    · split
      · exact h
      · split
        · exact h
        · exact
            { h with
              sameRows := (Board.rows_setCell ..).trans h.sameRows
              board := by
                rw [Board.mirror_setCell, h.board, h.sameRows] }

theorem Mirrors.applyCooldowns (h : Mirrors rows engine mirrored) (completing : List Motion) :
    Mirrors rows (engine.applyCooldownAfterArrivals completing)
      (mirrored.applyCooldownAfterArrivals (completing.map (Motion.mirror rows))) :=
  Transition.run_lockstep (fun _ _ motion hboth ↦ hboth.applyCooldown motion) h completing

theorem Mirrors.advanceTime (h : Mirrors rows engine mirrored) (hlife : engine.Lifecycle)
    (ms : ℤ) : Mirrors rows (engine.advanceTime ms) (mirrored.advanceTime ms) := by
  have hpremoves := (h.afterArrivals hlife ms).processPremoves (engine.completing ms)
  have hcooldowns := hpremoves.applyCooldowns (engine.completing ms)
  rwa [← h.completing] at hcooldowns

/-! ## Runs -/

/-- One operation on both boards: the same answer, and mirrored states again. -/
theorem Mirrors.perform (h : Mirrors rows engine mirrored) (hlife : engine.Lifecycle) (op : Op) :
    mirrored.answer (op.mirror rows) = engine.answer op ∧
      Mirrors rows (engine.step op) (mirrored.step (op.mirror rows)) := by
  cases op with
  | requestMove fromPos toPos =>
    obtain ⟨hanswer, hstep⟩ := h.requestMove fromPos toPos
    exact ⟨congrArg some hanswer, hstep⟩
  | requestJump pos =>
    obtain ⟨hanswer, hstep⟩ := h.requestJump pos
    exact ⟨congrArg some hanswer, hstep⟩
  | queuePremove key fromPos toPos => exact ⟨rfl, h.queuePremove key fromPos toPos⟩
  | advanceTime ms => exact ⟨rfl, h.advanceTime hlife ms⟩
  | remoteGameEnded winner =>
    refine ⟨rfl, ?_⟩
    simp only [Op.mirror, step_remoteGameEnded, h.isGameOver]
    split
    · exact h
    · exact
        { h with
          isGameOver := rfl
          winner := rfl }

/-- The engine on the mirrored board. -/
def mirrorBoard (engine : GameEngine) : GameEngine := { engine with board := engine.board.mirror }

theorem mirrors_reset (before : GameEngine) :
    Mirrors before.board.rows before.reset before.mirrorBoard.reset where
  sameRows := rfl
  board := rfl
  elapsedMs := rfl
  activeMotions := rfl
  premoves := fun _ ↦ rfl
  nextMotionId := rfl
  isGameOver := rfl
  winner := rfl
  moveLog := fun color ↦ by cases color <;> rfl

/-- The rules favour neither side: after any operations the mirrored run is in the mirrored state,
and it answers the next operation as the run does. -/
theorem run_mirror (before : GameEngine) (ops : List Op) :
    let rows := before.board.rows
    let engine := before.reset.run ops
    let mirrored := before.mirrorBoard.reset.run (ops.map (Op.mirror rows))
    Mirrors rows engine mirrored ∧
      ∀ op, mirrored.answer (op.mirror rows) = engine.answer op := by
  intro rows engine mirrored
  have hboth : engine.Lifecycle ∧ Mirrors rows engine mirrored :=
    Transition.run_lockstep
      (R := fun engine mirrored ↦ engine.Lifecycle ∧ Mirrors rows engine mirrored)
      (fun _ _ op h ↦ ⟨h.1.step op, (h.2.perform h.1 op).2⟩)
      ⟨(reachable_reset before).lifecycle, mirrors_reset before⟩ ops
  exact ⟨hboth.2, fun op ↦ (hboth.2.perform hboth.1 op).1⟩

end GameEngine

end KongFuChess.Engine
