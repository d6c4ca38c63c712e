import KongFuChess.Engine.Delay

/-!
# A move made alone

While nothing else is in flight a move arrives as it was started. An engine at rest that is asked
for a legal move, and is then given the time that the move takes, is at rest again, on the board
on which the piece stands on its destination and has just begun its rest.
-/

namespace KongFuChess.Engine

open Model Realtime Rules Events

/-- The board after a move that was waited for. -/
def playMove (board : Board) (fromPos toPos : Position) (ms : ℤ) : Board :=
  let rested := decreaseAllCooldowns board ms
  let mover := rested.cell fromPos
  let arrived :=
    if mover.type ≠ .pawn then mover
    else if toPos.row = lastRow rested mover.color then mover.markMoved.promote .queen
    else mover.markMoved
  ((rested.setCell toPos (arrived.setMoveCooldown GameConfig.kMoveCooldownMs)).setCell fromPos
    Piece.empty)

namespace GameEngine

/-- Nothing is in flight and nothing is queued. -/
structure AtRest (engine : GameEngine) (board : Board) : Prop where
  board_eq : engine.board = board
  not_over : engine.isGameOver = false
  idle : engine.activeMotions = []
  premoves : ∀ source, engine.premoves source = none

section Alone

variable {engine : GameEngine} {board : Board} {fromPos toPos : Position}

theorem AtRest.not_busy (h : engine.AtRest board) (pos : Position) :
    engine.isBusyAt pos = false := by
  rw [isBusyAt, h.idle]
  rfl

theorem AtRest.requestMove (h : engine.AtRest board)
    (hvalid : validateMove board fromPos toPos = true) :
    engine.requestMove fromPos toPos =
      (true, engine.start (engine.newMove fromPos toPos)
        (.moveStarted (engine.moveStartedEvent fromPos toPos))) :=
  requestMove_of_accepted ⟨h.not_over, h.not_busy fromPos, by rwa [h.board_eq]⟩

/-- A single move in flight, on the board on which it was started. -/
structure Alone (engine : GameEngine) (motion : Motion) : Prop where
  active : engine.activeMotions = [motion]
  move : motion.type = .move
  valid : motion.Valid engine.board
  onBoard : motion.OnBoard engine.board
  not_friendly : (engine.board.cell motion.destination).isFriendly motion.pieceColor = false
  not_king : (engine.board.cell motion.destination).type ≠ .king
  not_over : engine.isGameOver = false
  premoves : ∀ source, engine.premoves source = none

theorem AtRest.alone (h : engine.AtRest board) (hvalid : validateMove board fromPos toPos = true)
    (hking : (board.cell toPos).type ≠ .king) :
    (engine.requestMove fromPos toPos).2.Alone (engine.newMove fromPos toPos) := by
  have hvalidated := validated_of_validateMove hvalid
  rw [h.requestMove hvalid]
  obtain rfl := h.board_eq
  exact
    { active := by rw [activeMotions_start, h.idle, List.nil_append]
      move := rfl
      valid := ⟨hvalidated.occupied, rfl, rfl⟩
      onBoard := ⟨hvalidated.inBounds_from, hvalidated.inBounds_to, hvalidated.ne⟩
      not_friendly := hvalidated.not_friendly
      not_king := hking
      not_over := h.not_over
      premoves := h.premoves }

variable {motion : Motion} {ms : ℤ}

theorem Alone.completing (h : engine.Alone motion)
    (hexpired : motion.isExpired (engine.elapsedMs + ms) = true) :
    engine.completing ms = [motion] := by
  simp [GameEngine.completing, completingMoves, h.active, h.move, hexpired]

theorem Alone.verdict (h : engine.Alone motion) : engine.verdict motion = none := by
  have hjump : isJumpActiveAt engine.activeMotions motion.destination = false := by
    simp [isJumpActiveAt, h.active, h.move]
  simp [GameEngine.verdict, h.not_king, hjump]

theorem Alone.checkGameOver (h : engine.Alone motion) :
    engine.checkGameOverFromCompletingMoves [motion] = engine := by
  rw [checkGameOver_eq, if_neg (by simp [h.not_over]), List.findSome?_cons, h.verdict]
  rfl

/-- The move lands. -/
theorem Alone.arrivalTick (h : engine.Alone motion)
    (hexpired : motion.isExpired (engine.elapsedMs + ms) = true) :
    (engine.arrivalTick ms).board = landOn (decreaseAllCooldowns engine.board ms) motion := by
  have hsame := sameKinds_decreaseAllCooldowns engine.board ms
  have hon : motion.OnBoard (engine.arrivalStart ms).board := h.onBoard.congr hsame.inBounds
  have hlanded : outcome engine.activeMotions (engine.arrivalStart ms) motion = .landed := by
    have hvalid : motion.Valid (engine.arrivalStart ms).board :=
      h.valid.of_kind_eq (hsame.kind motion.source)
    have hfriendly :
        ((engine.arrivalStart ms).board.cell motion.destination).isFriendly motion.pieceColor =
          false := by
      rw [arrivalStart, Piece.isFriendly_congr (hsame.kind motion.destination)]
      exact h.not_friendly
    have hjump : isJumpActiveAt engine.activeMotions motion.destination = false := by
      simp [isJumpActiveAt, h.active, h.move]
    have harrived : squareArrivedThisTick (engine.arrivalStart ms).arrivedThisTick
        motion.destination = false := rfl
    simp [outcome, hvalid, hfriendly, hjump, harrived]
  rw [GameEngine.arrivalTick, arrivals, h.completing hexpired, List.insertionSort_cons,
    List.insertionSort_nil, List.orderedInsert_nil, List.foldl_cons, List.foldl_nil,
    resolveMoveArrival_eq_settle _ _ hon, hlanded]
  rfl

theorem Alone.board_afterArrivals (h : engine.Alone motion)
    (hexpired : motion.isExpired (engine.elapsedMs + ms) = true) :
    (engine.afterArrivals ms).board = landOn (decreaseAllCooldowns engine.board ms) motion := by
  rw [GameEngine.board_afterArrivals, h.completing hexpired, h.arrivalTick hexpired, h.active]
  simp [removeExpiredMotions, h.move, hexpired]

theorem Alone.activeMotions_afterArrivals (h : engine.Alone motion)
    (hexpired : motion.isExpired (engine.elapsedMs + ms) = true) :
    (engine.afterArrivals ms).activeMotions = [] := by
  rw [GameEngine.activeMotions_afterArrivals, h.active]
  simp [hexpired]

/-- The landed piece begins its rest. -/
theorem Alone.board_advanceTime (h : engine.Alone motion)
    (hexpired : motion.isExpired (engine.elapsedMs + ms) = true) :
    (engine.advanceTime ms).board =
      playMove engine.board motion.source motion.destination ms := by
  have hsame := sameKinds_decreaseAllCooldowns engine.board ms
  have hon : motion.OnBoard (decreaseAllCooldowns engine.board ms) :=
    h.onBoard.congr hsame.inBounds
  have hactive := h.activeMotions_afterArrivals hexpired
  have hlanded : (landOn (decreaseAllCooldowns engine.board ms) motion).cell motion.destination =
      landedPiece (decreaseAllCooldowns engine.board ms) motion := by
    rw [cell_landOn hon, if_pos rfl]
  have hfull : (landedPiece (decreaseAllCooldowns engine.board ms) motion).isEmpty = false :=
    landedPiece_isEmpty (h.valid.of_kind_eq (hsame.kind motion.source)).1
  rw [advanceTime_of_none h.premoves, h.completing hexpired, applyCooldownAfterArrivals,
    List.foldl_cons, List.foldl_nil, applyCooldownAfterArrival, if_neg (by simp [h.move])]
  rw [h.board_afterArrivals hexpired, if_neg (by simp [hon.destination])]
  simp only [hlanded, hfull, Bool.false_eq_true, if_false, isBusyAt, hactive, List.any_nil]
  rw [landOn, Board.setCell_comm _ hon.ne, Board.setCell_setCell_self]
  rfl

theorem Alone.atRest_advanceTime (h : engine.Alone motion)
    (hexpired : motion.isExpired (engine.elapsedMs + ms) = true) :
    (engine.advanceTime ms).AtRest (playMove engine.board motion.source motion.destination ms) where
  board_eq := h.board_advanceTime hexpired
  not_over := by
    rw [isGameOver_advanceTime, h.completing hexpired, h.checkGameOver]
    exact h.not_over
  idle := by
    rw [activeMotions_advanceTime_of_none h.premoves, h.active]
    simp [hexpired]
  premoves := by
    rw [premoves_advanceTime_of_none h.premoves]
    exact h.premoves

/-- An engine at rest plays a legal move that does not take a king, and is at rest again once the
move has had its time. -/
theorem AtRest.play (h : engine.AtRest board) (hvalid : validateMove board fromPos toPos = true)
    (hking : (board.cell toPos).type ≠ .king)
    (hms : distance fromPos toPos * GameConfig.kMoveDurationMs ≤ ms) :
    ((engine.requestMove fromPos toPos).2.advanceTime ms).AtRest
      (playMove board fromPos toPos ms) := by
  have halone := h.alone hvalid hking
  have hclock : (engine.requestMove fromPos toPos).2.elapsedMs = engine.elapsedMs := by
    rw [h.requestMove hvalid, elapsedMs_start]
  have hboard : (engine.requestMove fromPos toPos).2.board = board := by
    rw [h.requestMove hvalid, board_start, h.board_eq]
  have hexpired : (engine.newMove fromPos toPos).isExpired
      ((engine.requestMove fromPos toPos).2.elapsedMs + ms) = true := by
    rw [Motion.isExpired, decide_eq_true_eq, hclock]
    exact Int.add_le_add_left hms _
  have hrest := halone.atRest_advanceTime hexpired
  rwa [hboard] at hrest

end Alone

end GameEngine

end KongFuChess.Engine
