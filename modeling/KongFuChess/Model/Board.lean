import KongFuChess.Library.Grid

/-!
# Pieces, positions and the board

The board is a rectangular grid of pieces. An empty square is a piece of type `empty`; its colour
is meaningless and is white whenever the program itself emptied the square. Positions carry signed
coordinates, and the default position is the out-of-board `(-1, -1)`.
-/

namespace KongFuChess.Model

inductive Color
  | white
  | black
deriving DecidableEq, Repr

namespace Color

instance (P : Color → Prop) [DecidablePred P] : Decidable (∀ color, P color) :=
  decidable_of_iff (P .white ∧ P .black)
    ⟨fun h color ↦ by cases color <;> simp [h], fun h ↦ ⟨h _, h _⟩⟩

def opposite : Color → Color
  | white => black
  | black => white

@[simp]
theorem opposite_opposite (color : Color) : color.opposite.opposite = color := by
  cases color <;> rfl

@[simp]
theorem opposite_ne (color : Color) : color.opposite ≠ color := by
  cases color <;> decide

@[simp]
theorem ne_opposite (color : Color) : color ≠ color.opposite := by
  cases color <;> decide

/-- With two colours, differing from one of them means being the other. -/
theorem eq_opposite_of_ne {left right : Color} (h : left ≠ right) : left = right.opposite := by
  cases left <;> cases right <;> simp_all [opposite]

theorem opposite_eq_iff {left right : Color} : left.opposite = right ↔ left = right.opposite := by
  cases left <;> cases right <;> decide

end Color

inductive PieceType
  | empty
  | king
  | queen
  | rook
  | bishop
  | knight
  | pawn
deriving DecidableEq, Repr

@[ext]
structure Position where
  row : ℤ
  col : ℤ
deriving DecidableEq, Repr

/-- The default constructed position. -/
instance : Inhabited Position := ⟨⟨-1, -1⟩⟩

structure Piece where
  type : PieceType := .empty
  color : Color := .white
  moveCooldownRemainingMs : ℤ := 0
  moveCooldownTotalMs : ℤ := 0
  jumpCooldownRemainingMs : ℤ := 0
  jumpCooldownTotalMs : ℤ := 0
  hasMoved : Bool := false
deriving DecidableEq, Repr

namespace Piece

def empty : Piece := {}

/-- A piece at rest, as the boards are set up with. -/
def of (type : PieceType) (color : Color) : Piece := { type := type, color := color }

instance : Inhabited Piece := ⟨empty⟩

def isEmpty (piece : Piece) : Bool := piece.type = .empty

def isFriendly (piece : Piece) (color : Color) : Bool := !piece.isEmpty && piece.color = color

def promote (piece : Piece) (newType : PieceType) : Piece := { piece with type := newType }

def setMoveCooldown (piece : Piece) (ms : ℤ) : Piece :=
  { piece with moveCooldownRemainingMs := ms, moveCooldownTotalMs := ms }

def setJumpCooldown (piece : Piece) (ms : ℤ) : Piece :=
  { piece with jumpCooldownRemainingMs := ms, jumpCooldownTotalMs := ms }

def decreaseCooldown (piece : Piece) (ms : ℤ) : Piece :=
  { piece with
    moveCooldownRemainingMs :=
      if piece.moveCooldownRemainingMs > ms then piece.moveCooldownRemainingMs - ms else 0
    jumpCooldownRemainingMs :=
      if piece.jumpCooldownRemainingMs > ms then piece.jumpCooldownRemainingMs - ms else 0 }

def markMoved (piece : Piece) : Piece := { piece with hasMoved := true }

/-- What is visible of a piece: its type and colour. -/
def kind (piece : Piece) : PieceType × Color := (piece.type, piece.color)

/-- A non-empty piece of the given type and colour. -/
def Is (piece : Piece) (type : PieceType) (color : Color) : Prop :=
  piece.isEmpty = false ∧ piece.type = type ∧ piece.color = color

instance (piece : Piece) (type : PieceType) (color : Color) : Decidable (piece.Is type color) :=
  inferInstanceAs (Decidable (_ ∧ _))

@[simp]
theorem isEmpty_empty : empty.isEmpty = true := rfl

theorem isEmpty_iff (piece : Piece) : piece.isEmpty = true ↔ piece.type = .empty := by
  simp [isEmpty]

theorem isEmpty_eq_false_iff (piece : Piece) : piece.isEmpty = false ↔ piece.type ≠ .empty := by
  simp [isEmpty]

theorem isFriendly_iff (piece : Piece) (color : Color) :
    piece.isFriendly color = true ↔ piece.isEmpty = false ∧ piece.color = color := by
  simp [isFriendly]

/-- A piece that is neither absent nor friendly belongs to the opponent. -/
theorem color_of_not_isFriendly {piece : Piece} {color : Color} (hfull : piece.isEmpty = false)
    (h : piece.isFriendly color = false) : piece.color = color.opposite := by
  apply Color.eq_opposite_of_ne
  intro heq
  simp [isFriendly, hfull, heq] at h

@[simp]
theorem isEmpty_decreaseCooldown (piece : Piece) (ms : ℤ) :
    (piece.decreaseCooldown ms).isEmpty = piece.isEmpty := rfl

@[simp]
theorem kind_decreaseCooldown (piece : Piece) (ms : ℤ) :
    (piece.decreaseCooldown ms).kind = piece.kind := rfl

@[simp]
theorem kind_setMoveCooldown (piece : Piece) (ms : ℤ) :
    (piece.setMoveCooldown ms).kind = piece.kind := rfl

@[simp]
theorem kind_setJumpCooldown (piece : Piece) (ms : ℤ) :
    (piece.setJumpCooldown ms).kind = piece.kind := rfl

section Congr

variable {left right : Piece} (hkind : left.kind = right.kind)
include hkind

theorem type_congr : left.type = right.type := congrArg Prod.fst hkind

theorem color_congr : left.color = right.color := congrArg Prod.snd hkind

theorem isEmpty_congr : left.isEmpty = right.isEmpty := by
  rw [isEmpty, isEmpty, type_congr hkind]

theorem isFriendly_congr (color : Color) : left.isFriendly color = right.isFriendly color := by
  rw [isFriendly, isFriendly, isEmpty_congr hkind, color_congr hkind]

theorem Is.of_kind_eq {type : PieceType} {color : Color} (h : right.Is type color) :
    left.Is type color :=
  ⟨(isEmpty_congr hkind).trans h.1, (type_congr hkind).trans h.2.1,
    (color_congr hkind).trans h.2.2⟩

end Congr

end Piece

abbrev Board := Grid Piece

namespace Board

def inBounds (board : Board) (pos : Position) : Bool := decide (board.InBounds pos.row pos.col)

/-- The program indexes the grid without a check. Every read it makes on a rectangular board from
a checked position is inside; elsewhere the model reads an empty piece. -/
def cell (board : Board) (pos : Position) : Piece := board.getD pos.row pos.col Piece.empty

/-- Assignment through the mutable cell reference. -/
def setCell (board : Board) (pos : Position) (piece : Piece) : Board :=
  board.set pos.row pos.col piece

def movePiece (board : Board) (fromPos toPos : Position) : Board :=
  (board.setCell toPos (board.cell fromPos)).setCell fromPos Piece.empty

def removePieceAt (board : Board) (pos : Position) : Board := board.setCell pos Piece.empty

def clear (_board : Board) : Board where
  cells := []
  rectangular := fun _ hrow ↦ absurd hrow List.not_mem_nil

/-- The program appends any row. Its callers see to it that all rows are equally long. -/
def addRow (board : Board) (row : List Piece) (h : 0 < board.rows → row.length = board.cols) :
    Board where
  cells := board.cells ++ [row]
  rectangular := by
    intro other hother
    rw [List.mem_append, List.mem_singleton] at hother
    cases hcells : board.cells with
    | nil =>
      rw [hcells] at hother
      rw [hother.resolve_left List.not_mem_nil]
      rfl
    | cons first rest =>
      have hcols : board.cols = first.length := by rw [Grid.cols, hcells, List.headD_cons]
      rw [List.cons_append, List.headD_cons, ← hcols]
      rcases hother with hold | rfl
      · exact board.rectangular other hold
      · exact h (by simp [Grid.rows, hcells])

theorem inBounds_iff (board : Board) (pos : Position) :
    board.inBounds pos = true ↔ board.InBounds pos.row pos.col := by
  simp [inBounds]

theorem cell_of_not_inBounds (board : Board) {pos : Position} (h : board.inBounds pos = false) :
    board.cell pos = Piece.empty := by
  apply Grid.getD_of_not_inBounds
  rw [← inBounds_iff, h]
  exact Bool.false_ne_true

theorem get?_of_inBounds (board : Board) {pos : Position} (h : board.inBounds pos = true) :
    board.get? pos.row pos.col = some (board.cell pos) :=
  Grid.get?_of_inBounds board Piece.empty ((board.inBounds_iff pos).1 h)

@[simp]
theorem inBounds_setCell (board : Board) (target : Position) (piece : Piece) (pos : Position) :
    (board.setCell target piece).inBounds pos = board.inBounds pos := by
  simp [inBounds, setCell]

@[simp]
theorem rows_setCell (board : Board) (target : Position) (piece : Piece) :
    (board.setCell target piece).rows = board.rows := by
  simp [setCell]

theorem cell_setCell (board : Board) (target : Position) (piece : Piece) (pos : Position) :
    (board.setCell target piece).cell pos =
      if target = pos ∧ board.inBounds target = true then piece else board.cell pos := by
  simp only [cell, setCell, Grid.getD, Grid.get?_set, inBounds_iff, Position.ext_iff, and_assoc]
  split <;> rfl

@[simp]
theorem cell_setCell_self (board : Board) {target : Position} (piece : Piece)
    (h : board.inBounds target = true) : (board.setCell target piece).cell target = piece := by
  rw [cell_setCell, if_pos ⟨rfl, h⟩]

theorem cell_setCell_ne (board : Board) {target pos : Position} (piece : Piece)
    (h : pos ≠ target) : (board.setCell target piece).cell pos = board.cell pos := by
  rw [cell_setCell, if_neg fun heq ↦ h heq.1.symm]

/-- Boards of one size with the same cells are equal. -/
theorem ext_cell {left right : Board} (hrows : left.rows = right.rows)
    (hbounds : ∀ pos, left.inBounds pos = right.inBounds pos)
    (hcell : ∀ pos, left.cell pos = right.cell pos) : left = right := by
  apply Grid.ext_get? hrows
  intro row col
  have hin := hbounds ⟨row, col⟩
  by_cases h : left.inBounds ⟨row, col⟩ = true
  · have hleft := get?_of_inBounds left h
    have hright := get?_of_inBounds right (hin ▸ h)
    rw [hcell] at hleft
    exact hleft.trans hright.symm
  · have hleft : ¬ left.InBounds row col := by simpa [inBounds] using h
    rw [hin] at h
    have hright : ¬ right.InBounds row col := by simpa [inBounds] using h
    rw [(Grid.get?_eq_none_iff left row col).2 hleft,
      (Grid.get?_eq_none_iff right row col).2 hright]

@[simp]
theorem setCell_setCell_self (board : Board) (target : Position) (first second : Piece) :
    (board.setCell target first).setCell target second = board.setCell target second := by
  apply ext_cell (by simp) (by simp)
  intro pos
  simp only [cell_setCell, inBounds_setCell]
  split <;> rfl

theorem setCell_comm (board : Board) {left right : Position} (h : left ≠ right)
    (first second : Piece) :
    (board.setCell left first).setCell right second =
      (board.setCell right second).setCell left first := by
  apply ext_cell (by simp) (by simp)
  intro pos
  simp only [cell_setCell, inBounds_setCell]
  by_cases hleft : left = pos
  · subst hleft
    simp [h.symm]
  · simp [hleft]

end Board

end KongFuChess.Model
