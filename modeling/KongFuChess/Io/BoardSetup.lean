import KongFuChess.Io.Algebraic

/-!
# The standard set-up
-/

namespace KongFuChess.Io

open Model

/-- The pieces behind the pawns, from left to right. -/
def backRow (color : Color) : List Piece :=
  [.of .rook color, .of .knight color, .of .rook color, .of .king color, .of .queen color,
    .of .rook color, .of .knight color, .of .rook color]

/-- The board that `setupStandardBoard` fills in, whatever was on it before. -/
def setupStandardBoard : Board where
  cells :=
    [backRow .black, List.replicate 8 (.of .pawn .black)] ++
      List.replicate 4 (List.replicate 8 Piece.empty) ++
      [List.replicate 8 (.of .pawn .white), backRow .white]
  rectangular := by decide

/-- The squares of the standard set-up are those that have an algebraic name. -/
theorem inBounds_setupStandardBoard (pos : Position) :
    setupStandardBoard.inBounds pos = true ↔ OnStandardBoard pos := by
  have hrows : setupStandardBoard.rows = 8 := by decide
  have hcols : setupStandardBoard.cols = 8 := by decide
  rw [Board.inBounds_iff, Grid.InBounds, hrows, hcols]
  rfl

end KongFuChess.Io
