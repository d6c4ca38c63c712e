import KongFuChess.Engine.Lifecycle

/-!
# Waiting for no time

A call of `advanceTime` with nothing to wait for leaves an engine as it is, if none of its motions
has expired and no cooldown is negative. Every call keeps both, also one that turns the clock back,
so that time may be advanced by zero wherever it is convenient.

What a call does to the pieces is a short list of changes of a single piece; a property that these
changes keep holds of the whole board after the call.
-/

namespace KongFuChess.Realtime

open Model

/-- A property of single pieces that everything `advanceTime ms` does to a piece keeps. -/
structure PieceRule (P : Piece → Prop) (ms : ℤ) : Prop where
  empty : P Piece.empty
  decrease : ∀ piece, P piece → P (piece.decreaseCooldown ms)
  markMoved : ∀ piece, P piece → P piece.markMoved
  promote : ∀ piece, P piece → P (piece.promote .queen)
  moveCooldown : ∀ piece, P piece → P (piece.setMoveCooldown GameConfig.kMoveCooldownMs)
  jumpCooldown : ∀ piece, P piece → P (piece.setJumpCooldown GameConfig.kJumpCooldownMs)

section Cells

variable {P : Piece → Prop} {board : Board}

theorem forall_cell_setCell (h : ∀ pos, P (board.cell pos)) (target : Position) {piece : Piece}
    (hpiece : P piece) : ∀ pos, P ((board.setCell target piece).cell pos) := by
  intro pos
  rw [Board.cell_setCell]
  split
  · exact hpiece
  · exact h pos

namespace PieceRule

variable {ms : ℤ} (hP : PieceRule P ms)
include hP

theorem removePieceAt (h : ∀ pos, P (board.cell pos)) (target : Position) :
    ∀ pos, P ((board.removePieceAt target).cell pos) :=
  forall_cell_setCell h target hP.empty

theorem promotePawn (h : ∀ pos, P (board.cell pos)) (target : Position) :
    ∀ pos, P ((promotePawnIfEligible board target).cell pos) := by
  unfold promotePawnIfEligible
  simp only
  split
  · exact h
  · split
    · exact forall_cell_setCell h target (hP.promote _ (h target))
    · exact h

theorem resolveMoveArrival (activeMotions : List Motion) {tick : Tick}
    (h : ∀ pos, P (tick.board.cell pos)) (motion : Motion) :
    ∀ pos, P ((resolveMoveArrival activeMotions tick motion).board.cell pos) := by
  unfold Realtime.resolveMoveArrival
  simp only
  split
  · exact h
  split
  · exact h
  split
  · exact h
  split
  · exact hP.removePieceAt h motion.source
  split
  · exact hP.removePieceAt h motion.source
  · have hmoved : ∀ pos,
        P ((tick.board.movePiece motion.source motion.destination).cell pos) :=
      forall_cell_setCell (forall_cell_setCell h _ (h motion.source)) _ hP.empty
    apply hP.promotePawn
    split
    · exact forall_cell_setCell hmoved _ (hP.markMoved _ (hmoved _))
    · exact hmoved

theorem landJump (currentTimeMs : ℤ) (h : ∀ pos, P (board.cell pos)) (motion : Motion) :
    ∀ pos, P ((landJump currentTimeMs board motion).cell pos) := by
  unfold Realtime.landJump
  simp only
  split
  · exact h
  split
  · exact h
  split
  · exact forall_cell_setCell h _ (hP.jumpCooldown _ (h motion.source))
  · exact h

end PieceRule

end Cells

end KongFuChess.Realtime

namespace KongFuChess.Engine

open Model Realtime Rules Events

namespace GameEngine

/-! ## The pieces of the board -/

section Pieces

variable {P : Piece → Prop} {ms : ℤ} {engine : GameEngine}

theorem forall_cell_arrivalTick (hP : PieceRule P ms) (h : ∀ pos, P (engine.board.cell pos)) :
    ∀ pos, P ((engine.arrivalTick ms).board.cell pos) := by
  apply List.foldlRecOn (motive := fun tick : Tick ↦ ∀ pos, P (tick.board.cell pos))
  · intro pos
    rw [arrivalStart, cell_decreaseAllCooldowns]
    split
    · exact hP.decrease _ (h pos)
    · exact hP.empty
  · exact fun tick htick motion _ ↦ hP.resolveMoveArrival _ htick motion

theorem forall_cell_afterArrivals (hP : PieceRule P ms) (h : ∀ pos, P (engine.board.cell pos)) :
    ∀ pos, P ((engine.afterArrivals ms).board.cell pos) := by
  rw [board_afterArrivals]
  apply List.foldlRecOn (motive := fun board : Board ↦ ∀ pos, P (board.cell pos))
  · exact forall_cell_arrivalTick hP h
  · exact fun board hboard motion _ ↦ hP.landJump _ hboard motion

/-- The rule for single pieces: what every change keeps holds of all squares after the call. -/
theorem forall_cell_advanceTime (hP : PieceRule P ms) (h : ∀ pos, P (engine.board.cell pos)) :
    ∀ pos, P ((engine.advanceTime ms).board.cell pos) := by
  rw [advanceTime_eq]
  apply List.foldlRecOn (motive := fun later : GameEngine ↦ ∀ pos, P (later.board.cell pos))
  · rw [board_processPremoves]
    exact forall_cell_afterArrivals hP h
  · intro later hlater motion _
    unfold applyCooldownAfterArrival
    split
    · exact hlater
    split
    · exact hlater
    simp only
    split
    · exact hlater
    split
    · exact hlater
    · exact forall_cell_setCell hlater _ (hP.moveCooldown _ (hlater _))

end Pieces

/-! ## Poised engines -/

/-- No motion has expired. -/
def Running (engine : GameEngine) : Prop :=
  ∀ motion ∈ engine.activeMotions, motion.isExpired engine.elapsedMs = false

/-- No cooldown is negative. -/
def NonnegCooldowns (piece : Piece) : Prop :=
  0 ≤ piece.moveCooldownRemainingMs ∧ 0 ≤ piece.jumpCooldownRemainingMs

/-- Nothing is due. -/
structure Poised (engine : GameEngine) : Prop where
  running : engine.Running
  cooldowns : ∀ pos, NonnegCooldowns (engine.board.cell pos)

theorem Running.start {engine : GameEngine} (h : engine.Running) {motion : Motion}
    (hmotion : engine.Startable motion) (event : GameEvent) :
    (engine.start motion event).Running := by
  apply forall_mem_start h
  have hduration := hmotion.duration
  rw [isExpired_eq_false_iff, hmotion.started]
  omega

theorem Running.requestMove {engine : GameEngine} (h : engine.Running) (fromPos toPos : Position) :
    (engine.requestMove fromPos toPos).2.Running :=
  requestMove_induction (fun haccepted ↦ h.start (startable_newMove haccepted) _) h

/-- A call of `advanceTime` leaves no motion that has expired, whatever was there before. -/
theorem running_advanceTime (engine : GameEngine) (ms : ℤ) : (engine.advanceTime ms).Running := by
  have hafter : (engine.afterArrivals ms).Running := by
    intro motion hmotion
    rw [activeMotions_afterArrivals, List.mem_filter] at hmotion
    rw [elapsedMs_afterArrivals]
    simpa using hmotion.2
  have hpremoves := processPremoves_induction (P := Running) (fun _ _ h ↦ h)
    (fun _ fromPos toPos h ↦ h.requestMove fromPos toPos) hafter (engine.completing ms)
  rw [advanceTime_eq]
  intro motion hmotion
  simp only [activeMotions, elapsedMs, arbiter_applyCooldown] at hmotion ⊢
  exact hpremoves motion hmotion

theorem pieceRule_nonnegCooldowns (ms : ℤ) : PieceRule NonnegCooldowns ms where
  empty := ⟨le_rfl, le_rfl⟩
  decrease := by
    rintro piece ⟨hmove, hjump⟩
    unfold NonnegCooldowns Piece.decreaseCooldown
    simp only
    constructor
    · split <;> omega
    · split <;> omega
  markMoved := fun _ h ↦ h
  promote := fun _ h ↦ h
  moveCooldown := fun _ h ↦ ⟨Int.natCast_nonneg 1000, h.2⟩
  jumpCooldown := fun _ h ↦ ⟨h.1, Int.natCast_nonneg 2000⟩

namespace Poised

variable {engine : GameEngine}

theorem start (h : engine.Poised) {motion : Motion} (hmotion : engine.Startable motion)
    (event : GameEvent) : (engine.start motion event).Poised :=
  ⟨h.running.start hmotion event, h.cooldowns⟩

theorem requestMove (h : engine.Poised) (fromPos toPos : Position) :
    (engine.requestMove fromPos toPos).2.Poised :=
  requestMove_induction (fun haccepted ↦ h.start (startable_newMove haccepted) _) h

theorem requestJump (h : engine.Poised) (pos : Position) : (engine.requestJump pos).2.Poised :=
  requestJump_induction (fun haccepted ↦ h.start (startable_newJump haccepted) _) h

theorem queuePremove (h : engine.Poised) (key fromPos toPos : Position) :
    (engine.queuePremove key fromPos toPos).Poised := ⟨h.running, h.cooldowns⟩

theorem advanceTime (h : engine.Poised) (ms : ℤ) : (engine.advanceTime ms).Poised :=
  ⟨running_advanceTime engine ms,
    forall_cell_advanceTime (pieceRule_nonnegCooldowns ms) h.cooldowns⟩

theorem completing_zero (h : engine.Poised) : engine.completing 0 = [] := by
  apply List.eq_nil_iff_forall_not_mem.2
  intro motion hmem
  obtain ⟨hactive, -, hexpired⟩ := mem_completing.1 hmem
  rw [add_zero, h.running motion hactive] at hexpired
  exact absurd hexpired (by decide)

theorem decreaseAllCooldowns_zero (h : engine.Poised) :
    decreaseAllCooldowns engine.board 0 = engine.board := by
  have hsame := sameKinds_decreaseAllCooldowns engine.board 0
  apply Board.ext_cell hsame.rows hsame.inBounds
  intro pos
  rw [cell_decreaseAllCooldowns]
  split
  · obtain ⟨hmove, hjump⟩ := h.cooldowns pos
    generalize engine.board.cell pos = piece at hmove hjump
    obtain ⟨type, color, moveRemaining, moveTotal, jumpRemaining, jumpTotal, hasMoved⟩ := piece
    simp only [Piece.decreaseCooldown, Piece.mk.injEq, true_and, and_true] at hmove hjump ⊢
    constructor
    · split <;> omega
    · split <;> omega
  · rename_i hout
    exact (engine.board.cell_of_not_inBounds (by simpa using hout)).symm

theorem removeExpired_zero (h : engine.Poised) (type : MotionType) :
    removeExpiredMotions engine.activeMotions type engine.elapsedMs = engine.activeMotions := by
  apply List.filter_eq_self.2
  intro motion hmem
  simp [h.running motion hmem]

theorem foldl_landJump_zero (h : engine.Poised) (board : Board) :
    engine.activeMotions.foldl (landJump engine.elapsedMs) board = board := by
  refine List.foldlRecOn (motive := fun later ↦ later = board) engine.activeMotions _ rfl ?_
  rintro later rfl motion hmem
  rw [landJump, if_pos (by simp [h.running motion hmem])]

/-- Advancing the time by nothing changes nothing. -/
theorem advanceTime_zero (h : engine.Poised) : engine.advanceTime 0 = engine := by
  have hnone := h.completing_zero
  have hcompleting :
      completingMoves engine.arbiter.activeMotions engine.arbiter.elapsedMs = [] := by
    have heq := hnone
    simp only [completing, add_zero] at heq
    exact heq
  have harbiter :
      engine.arbiter.advanceTime 0 engine.board = (engine.arbiter, engine.board, []) := by
    have hboard := h.foldl_landJump_zero engine.board
    have hjumps := h.removeExpired_zero .jump
    simp only [activeMotions, elapsedMs] at hboard hjumps
    simp only [RealTimeArbiter.advanceTime, add_zero, hcompleting, h.decreaseAllCooldowns_zero,
      List.insertionSort_nil, RealTimeArbiter.resolveArrivals, List.foldl_nil, List.isEmpty_nil,
      Bool.not_true, Bool.false_eq_true, if_false, hboard, hjumps]
  have hafter : engine.afterArrivals 0 = engine := by
    have hcheck : engine.checkGameOverFromCompletingMoves [] = engine := by
      unfold checkGameOverFromCompletingMoves
      split <;> rfl
    rw [afterArrivals, hnone, hcheck]
    simp only [advanceArbiter, harbiter, processMoveResolutions, List.foldl_nil]
  rw [advanceTime_eq, hnone, hafter]
  unfold processPremovesAfterAdvance
  split <;> rfl

end Poised

end GameEngine

end KongFuChess.Engine
