import KongFuChess.Rules.Movement

/-!
# Mirroring boards and rules

The mirror image of a board has its rows reversed and the colours of its pieces exchanged. An empty
square carries a colour without meaning, and the mirror leaves it alone. All movement rules give
the same answer on a board and on its mirror image.
-/

namespace KongFuChess.Model

/-- The square in the mirrored row. -/
def Position.mirror (rows : ℕ) (pos : Position) : Position := ⟨rows - 1 - pos.row, pos.col⟩

/-- The same piece for the other side; an empty square stays as it is. -/
def Piece.mirror (piece : Piece) : Piece :=
  if piece.isEmpty then piece else { piece with color := piece.color.opposite }

def Board.mirror (board : Board) : Board := (board.map Piece.mirror).flip

namespace Position

@[simp]
theorem mirror_mirror (rows : ℕ) (pos : Position) : (pos.mirror rows).mirror rows = pos := by
  apply Position.ext <;> simp [mirror]

theorem mirror_inj (rows : ℕ) {left right : Position} :
    left.mirror rows = right.mirror rows ↔ left = right := by
  constructor
  · intro h
    rw [← mirror_mirror rows left, h, mirror_mirror]
  · rintro rfl
    rfl

/-- Moving the mirror to the other side of an equation between squares. -/
theorem mirror_eq_iff {rows : ℕ} {left right : Position} :
    left.mirror rows = right ↔ left = right.mirror rows := by
  rw [← mirror_inj rows, mirror_mirror]

end Position

namespace Piece

@[simp]
theorem isEmpty_mirror (piece : Piece) : piece.mirror.isEmpty = piece.isEmpty := by
  unfold mirror
  split <;> rfl

@[simp]
theorem type_mirror (piece : Piece) : piece.mirror.type = piece.type := by
  unfold mirror
  split <;> rfl

@[simp]
theorem hasMoved_mirror (piece : Piece) : piece.mirror.hasMoved = piece.hasMoved := by
  unfold mirror
  split <;> rfl

@[simp]
theorem moveCooldownRemainingMs_mirror (piece : Piece) :
    piece.mirror.moveCooldownRemainingMs = piece.moveCooldownRemainingMs := by
  unfold mirror
  split <;> rfl

@[simp]
theorem jumpCooldownRemainingMs_mirror (piece : Piece) :
    piece.mirror.jumpCooldownRemainingMs = piece.jumpCooldownRemainingMs := by
  unfold mirror
  split <;> rfl

@[simp]
theorem mirror_empty : empty.mirror = empty := rfl

/-- The colour of a piece that is there is exchanged. -/
theorem color_mirror {piece : Piece} (h : piece.isEmpty = false) :
    piece.mirror.color = piece.color.opposite := by
  simp [mirror, h]

@[simp]
theorem isFriendly_mirror (piece : Piece) (color : Color) :
    piece.mirror.isFriendly color.opposite = piece.isFriendly color := by
  by_cases hempty : piece.type = .empty
  · simp [isFriendly, isEmpty, hempty]
  · simp [isFriendly, isEmpty, hempty, mirror, Color.opposite_eq_iff]

theorem is_mirror {piece : Piece} {type : PieceType} {color : Color} :
    piece.mirror.Is type color.opposite ↔ piece.Is type color := by
  by_cases hempty : piece.type = .empty
  · simp [Is, isEmpty, hempty]
  · simp [Is, isEmpty, hempty, mirror, Color.opposite_eq_iff]

@[simp]
theorem mirror_setMoveCooldown (piece : Piece) (ms : ℤ) :
    (piece.setMoveCooldown ms).mirror = piece.mirror.setMoveCooldown ms := by
  by_cases hempty : piece.type = .empty <;> simp [mirror, setMoveCooldown, isEmpty, hempty]

@[simp]
theorem mirror_setJumpCooldown (piece : Piece) (ms : ℤ) :
    (piece.setJumpCooldown ms).mirror = piece.mirror.setJumpCooldown ms := by
  by_cases hempty : piece.type = .empty <;> simp [mirror, setJumpCooldown, isEmpty, hempty]

@[simp]
theorem mirror_decreaseCooldown (piece : Piece) (ms : ℤ) :
    (piece.decreaseCooldown ms).mirror = piece.mirror.decreaseCooldown ms := by
  by_cases hempty : piece.type = .empty <;> simp [mirror, decreaseCooldown, isEmpty, hempty]

@[simp]
theorem mirror_markMoved (piece : Piece) : piece.markMoved.mirror = piece.mirror.markMoved := by
  by_cases hempty : piece.type = .empty <;> simp [mirror, markMoved, isEmpty, hempty]

theorem mirror_promote {piece : Piece} {newType : PieceType} (h : piece.isEmpty = false)
    (hnew : newType ≠ .empty) : (piece.promote newType).mirror = piece.mirror.promote newType := by
  have hpromoted : (piece.promote newType).isEmpty = false := by
    simp [isEmpty, promote, hnew]
  rw [mirror, mirror, hpromoted, h]
  rfl

end Piece

namespace Board

@[simp]
theorem rows_mirror (board : Board) : board.mirror.rows = board.rows := by
  simp [mirror]

theorem cell_mirror (board : Board) (pos : Position) :
    board.mirror.cell pos = (board.cell (pos.mirror board.rows)).mirror := by
  simp only [cell, mirror, Position.mirror, Grid.getD, Grid.get?_flip, Grid.get?_map, Grid.rows_map]
  cases board.get? (board.rows - 1 - pos.row) pos.col <;> rfl

theorem cell_mirror_mirror {board : Board} {rows : ℕ} (h : board.rows = rows) (pos : Position) :
    board.mirror.cell (pos.mirror rows) = (board.cell pos).mirror := by
  rw [cell_mirror, h, Position.mirror_mirror]

theorem inBounds_mirror (board : Board) (pos : Position) :
    board.mirror.inBounds pos = board.inBounds (pos.mirror board.rows) := by
  rw [Bool.eq_iff_iff, inBounds_iff, inBounds_iff, mirror, Grid.inBounds_flip, Grid.inBounds_map,
    Grid.rows_map]
  rfl

/-- Writing a cell and mirroring is writing the mirrored piece on the mirrored square. -/
theorem mirror_setCell (board : Board) (pos : Position) (piece : Piece) :
    (board.setCell pos piece).mirror =
      board.mirror.setCell (pos.mirror board.rows) piece.mirror := by
  apply ext_cell (by simp)
  · intro other
    simp [inBounds_mirror]
  · intro other
    simp only [cell_mirror, cell_setCell, inBounds_mirror, rows_setCell,
      Position.mirror_eq_iff, Position.mirror_mirror]
    split <;> rfl

end Board

end KongFuChess.Model

namespace KongFuChess.Rules

open Model

theorem sign_neg (delta : ℤ) : sign (-delta) = -sign delta := by
  rcases lt_trichotomy delta 0 with h | rfl | h
  · rw [sign, if_pos (by omega), sign, if_neg (by omega), if_pos h, neg_neg]
  · rfl
  · rw [sign, if_neg (by omega), if_pos (by omega), sign, if_pos h]

theorem row_mirror_sub (rows : ℕ) (fromPos toPos : Position) :
    (toPos.mirror rows).row - (fromPos.mirror rows).row = -(toPos.row - fromPos.row) := by
  simp only [Position.mirror]
  omega

theorem col_mirror_sub (rows : ℕ) (fromPos toPos : Position) :
    (toPos.mirror rows).col - (fromPos.mirror rows).col = toPos.col - fromPos.col := rfl

@[simp]
theorem distance_mirror (rows : ℕ) (fromPos toPos : Position) :
    distance (fromPos.mirror rows) (toPos.mirror rows) = distance fromPos toPos := by
  rw [distance, distance, row_mirror_sub, col_mirror_sub, Int.natAbs_neg]

/-- The mirrored loop visits the mirrored squares. -/
theorem isPathClearLoop_mirror (board : Board) (toPos : Position) (stepR stepC : ℤ) (fuel : ℕ)
    (r c : ℤ) :
    isPathClearLoop board.mirror (toPos.mirror board.rows) (-stepR) stepC fuel
        (board.rows - 1 - r) c =
      isPathClearLoop board toPos stepR stepC fuel r c := by
  induction fuel generalizing r c with
  | zero => rfl
  | succ fuel ih =>
    have hstep : (board.rows - 1 - r + -stepR : ℤ) = board.rows - 1 - (r + stepR) := by omega
    have hcell : board.mirror.cell ⟨board.rows - 1 - r, c⟩ = (board.cell ⟨r, c⟩).mirror := by
      rw [Board.cell_mirror]
      simp [Position.mirror]
    have hdone : (board.rows - 1 - r : ℤ) ≠ (toPos.mirror board.rows).row ∨
        c ≠ (toPos.mirror board.rows).col ↔ r ≠ toPos.row ∨ c ≠ toPos.col := by
      simp only [Position.mirror]
      omega
    rw [isPathClearLoop, isPathClearLoop, hstep, hcell, ih, Piece.isEmpty_mirror]
    simp only [hdone]

theorem isPathClear_mirror (board : Board) (fromPos toPos : Position) :
    isPathClear board.mirror (fromPos.mirror board.rows) (toPos.mirror board.rows) =
      isPathClear board fromPos toPos := by
  have hstart : (fromPos.mirror board.rows).row + -sign (toPos.row - fromPos.row) =
      board.rows - 1 - (fromPos.row + sign (toPos.row - fromPos.row)) := by
    simp only [Position.mirror]
    omega
  simp only [isPathClear, row_mirror_sub, col_mirror_sub, sign_neg, distance_mirror, hstart,
    isPathClearLoop_mirror]
  rfl

theorem isStraightMove_mirror (rows : ℕ) (fromPos toPos : Position) :
    isStraightMove (fromPos.mirror rows) (toPos.mirror rows) = isStraightMove fromPos toPos := by
  have hrow : (fromPos.mirror rows).row = (toPos.mirror rows).row ↔ fromPos.row = toPos.row := by
    simp only [Position.mirror]
    omega
  simp only [isStraightMove, hrow]
  rfl

theorem isDiagonalMove_mirror (rows : ℕ) (fromPos toPos : Position) :
    isDiagonalMove (fromPos.mirror rows) (toPos.mirror rows) = isDiagonalMove fromPos toPos := by
  simp only [isDiagonalMove, row_mirror_sub, col_mirror_sub, Int.natAbs_neg, neg_ne_zero]

theorem canSlideStraight_mirror (board : Board) (fromPos toPos : Position) :
    canSlideStraight board.mirror (fromPos.mirror board.rows) (toPos.mirror board.rows) =
      canSlideStraight board fromPos toPos := by
  rw [canSlideStraight, canSlideStraight, isStraightMove_mirror, isPathClear_mirror]

theorem canSlideDiagonal_mirror (board : Board) (fromPos toPos : Position) :
    canSlideDiagonal board.mirror (fromPos.mirror board.rows) (toPos.mirror board.rows) =
      canSlideDiagonal board fromPos toPos := by
  rw [canSlideDiagonal, canSlideDiagonal, isDiagonalMove_mirror, isPathClear_mirror]

/-- Pawns of the two sides move towards each other, from mirrored home ranks. -/
theorem pawnMovement_mirror (board : Board) (fromPos toPos : Position) {piece : Piece}
    (h : piece.isEmpty = false) :
    pawnMovement board.mirror (fromPos.mirror board.rows) (toPos.mirror board.rows) piece.mirror =
      pawnMovement board fromPos toPos piece := by
  have hforward : (if piece.color.opposite = .white then -1 else 1 : ℤ) =
      -(if piece.color = .white then -1 else 1 : ℤ) := by
    cases piece.color <;> rfl
  have hhome : (fromPos.mirror board.rows).row ≠
        (if piece.color.opposite = .white then (board.rows : ℤ) - 2 else 1) ↔
      fromPos.row ≠ (if piece.color = .white then (board.rows : ℤ) - 2 else 1) := by
    simp only [Position.mirror]
    cases piece.color <;> simp [Color.opposite] <;> omega
  have hbetween : ∀ forwardDr : ℤ,
      Position.mirror board.rows ⟨(fromPos.mirror board.rows).row + -forwardDr, fromPos.col⟩ =
        ⟨fromPos.row + forwardDr, fromPos.col⟩ := by
    intro forwardDr
    apply Position.ext
    · simp only [Position.mirror]
      omega
    · rfl
  have hdouble : ∀ dr forwardDr : ℤ, -dr = 2 * -forwardDr ↔ dr = 2 * forwardDr := by
    intro dr forwardDr
    omega
  have hcol : ∀ pos : Position, (pos.mirror board.rows).col = pos.col := fun _ ↦ rfl
  simp only [pawnMovement, Piece.color_mirror h, row_mirror_sub, hforward, hdouble, neg_inj, hcol,
    Board.rows_mirror, hhome, Board.cell_mirror, hbetween, Position.mirror_mirror,
    Piece.isEmpty_mirror, Piece.hasMoved_mirror, Piece.isFriendly_mirror]

theorem movement_mirror {type : PieceType} {movement : PieceMovement}
    (hmovement : movementFor type = some movement) (board : Board) (fromPos toPos : Position)
    {piece : Piece} (h : piece.isEmpty = false) :
    movement board.mirror (fromPos.mirror board.rows) (toPos.mirror board.rows) piece.mirror =
      movement board fromPos toPos piece := by
  cases type <;> simp only [movementFor, reduceCtorEq, Option.some.injEq] at hmovement <;>
    subst hmovement
  · rw [Bool.eq_iff_iff]
    simp only [kingMovement, Bool.and_eq_true, Bool.or_eq_true, decide_eq_true_eq]
    simp only [row_mirror_sub, col_mirror_sub, Int.natAbs_neg]
  · rw [queenMovement, queenMovement, canSlideStraight_mirror, canSlideDiagonal_mirror]
  · exact canSlideStraight_mirror board fromPos toPos
  · exact canSlideDiagonal_mirror board fromPos toPos
  · rw [Bool.eq_iff_iff]
    simp only [knightMovement, Bool.and_eq_true, Bool.or_eq_true, decide_eq_true_eq]
    simp only [row_mirror_sub, col_mirror_sub, Int.natAbs_neg]
  · exact pawnMovement_mirror board fromPos toPos h

theorem canMove_mirror (board : Board) (fromPos toPos : Position) :
    canMove board.mirror (fromPos.mirror board.rows) (toPos.mirror board.rows) =
      canMove board fromPos toPos := by
  simp only [canMove, Position.mirror_inj, Board.inBounds_mirror, Board.cell_mirror,
    Position.mirror_mirror, Piece.isEmpty_mirror, Piece.type_mirror]
  by_cases hempty : (board.cell fromPos).isEmpty = true
  · simp only [hempty, if_true]
  · have hfull : (board.cell fromPos).isEmpty = false := by simpa using hempty
    simp only [Piece.color_mirror hfull, Piece.isFriendly_mirror]
    cases hmovement : movementFor (board.cell fromPos).type with
    | none => rfl
    | some movement => simp only [movement_mirror hmovement board fromPos toPos hfull]

/-- A move is legal if and only if the mirrored move is legal on the mirrored board. -/
theorem validateMove_mirror (board : Board) (fromPos toPos : Position) :
    validateMove board.mirror (fromPos.mirror board.rows) (toPos.mirror board.rows) =
      validateMove board fromPos toPos := by
  simp only [validateMove, Board.inBounds_mirror, Board.cell_mirror, Position.mirror_mirror,
    Piece.isEmpty_mirror, Piece.moveCooldownRemainingMs_mirror, canMove_mirror]

end KongFuChess.Rules
