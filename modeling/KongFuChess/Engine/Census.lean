import KongFuChess.Engine.Turns

/-!
# Counting what stands on the board

A weight of pieces that ignores cooldowns, summed over the board, changes only when an arrival
changes the board: a removal takes the weight of the mover away, and a landing exchanges the
weights of the mover and of what stood on the destination for the weight of the landed piece.
-/

namespace KongFuChess.Engine

open Model Realtime Rules Events

section Weight

variable {M : Type*} [AddCommMonoid M]

/-- A weight that depends only on what a piece looks like and is zero where there is none. -/
structure Visible (weight : Piece → M) : Prop where
  empty : ∀ piece : Piece, piece.isEmpty = true → weight piece = 0
  congr : ∀ left right : Piece, left.kind = right.kind → weight left = weight right

/-- Boards that look the same weigh the same. -/
theorem SameKinds.total_eq {left right : Board} (h : SameKinds left right) {weight : Piece → M}
    (hweight : Visible weight) : left.total weight = right.total weight := by
  have hmap : left.map weight = right.map weight := h.map_eq hweight.congr
  have htotal := congrArg (Grid.total id) hmap
  simpa using htotal

theorem total_setCell (board : Board) (weight : Piece → M) {pos : Position} (piece : Piece)
    (h : board.inBounds pos = true) :
    (board.setCell pos piece).total weight + weight (board.cell pos) =
      board.total weight + weight piece :=
  Grid.total_set weight board piece (board.get?_of_inBounds h)

theorem total_removePieceAt {weight : Piece → M} (hweight : Visible weight) (board : Board)
    {pos : Position} (h : board.inBounds pos = true) :
    (board.removePieceAt pos).total weight + weight (board.cell pos) = board.total weight := by
  have hset := total_setCell board weight Piece.empty h
  rwa [hweight.empty Piece.empty rfl, add_zero] at hset

/-- A landing exchanges the weights of the mover and of the occupant for that of the landed
piece. -/
theorem total_landOn {weight : Piece → M} (hweight : Visible weight) {board : Board}
    {motion : Motion} (hon : motion.OnBoard board) :
    (landOn board motion).total weight +
        (weight (board.cell motion.source) + weight (board.cell motion.destination)) =
      board.total weight + weight (landedPiece board motion) := by
  have hremove := total_removePieceAt hweight
    (board.setCell motion.destination (landedPiece board motion))
    (show Board.inBounds _ motion.source = true by simpa using hon.source)
  have hset := total_setCell board weight (landedPiece board motion) hon.destination
  rw [Board.cell_setCell_ne _ _ hon.ne] at hremove
  rw [← hset, ← hremove, add_assoc]
  rfl

end Weight

/-- What the outcome of an arrival does to the total weight of the board. -/
theorem total_settle {weight : Piece → ℤ} (hweight : Visible weight) {tick : Tick} {motion : Motion}
    (hon : motion.OnBoard tick.board) (result : Outcome) :
    (tick.settle motion result).board.total weight =
      match result with
      | .stale => tick.board.total weight
      | .blocked => tick.board.total weight
      | .jumpCaptured => tick.board.total weight - weight (tick.board.cell motion.source)
      | .lostTie => tick.board.total weight - weight (tick.board.cell motion.source)
      | .landed =>
        tick.board.total weight - weight (tick.board.cell motion.source) -
          weight (tick.board.cell motion.destination) + weight (landedPiece tick.board motion) := by
  have hremove := total_removePieceAt hweight tick.board hon.source
  have hland := total_landOn hweight hon
  cases result with
  | stale => rfl
  | blocked => rfl
  | jumpCaptured | lostTie =>
    simp only [Tick.settle]
    omega
  | landed =>
    simp only [Tick.settle]
    omega

namespace GameEngine

variable {M : Type*} [AddCommMonoid M]

theorem total_arrivalStart (engine : GameEngine) (ms : ℤ) {weight : Piece → M}
    (hweight : Visible weight) :
    (engine.arrivalStart ms).board.total weight = engine.board.total weight :=
  (engine.sameKinds_arrivalStart ms).total_eq hweight

theorem total_advanceTime (engine : GameEngine) (ms : ℤ) {weight : Piece → M}
    (hweight : Visible weight) :
    (engine.advanceTime ms).board.total weight = (engine.arrivalTick ms).board.total weight :=
  (engine.sameKinds_advanceTime ms).total_eq hweight

end GameEngine

end KongFuChess.Engine
