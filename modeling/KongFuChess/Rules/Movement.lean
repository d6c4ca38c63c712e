import KongFuChess.Model.Board

/-!
# Movement rules

Each kind of piece has a movement test on the current board; `canMove` adds the checks common to
all pieces and `validateMove` the move cooldown. The path loop of the sliding pieces stops only
when it meets the destination exactly, so it is modelled with fuel; its callers first establish
that the two squares lie on one line, and then as many steps as squares suffice.
-/

namespace KongFuChess.Rules

open Model

def sign (delta : ℤ) : ℤ :=
  if delta > 0 then 1
  else if delta < 0 then -1
  else 0

/-- The loop of `isPathClear` from `(r, c)` on; `none` when the fuel runs out first. -/
def isPathClearLoop (board : Board) (toPos : Position) (stepR stepC : ℤ) :
    ℕ → ℤ → ℤ → Option Bool
  | 0, _, _ => none
  | fuel + 1, r, c =>
    if r ≠ toPos.row ∨ c ≠ toPos.col then
      if !(board.cell ⟨r, c⟩).isEmpty then some false
      else isPathClearLoop board toPos stepR stepC fuel (r + stepR) (c + stepC)
    else some true

/-- King steps between two squares. -/
def distance (fromPos toPos : Position) : ℕ :=
  max (toPos.row - fromPos.row).natAbs (toPos.col - fromPos.col).natAbs

def isPathClear (board : Board) (fromPos toPos : Position) : Bool :=
  let stepR := sign (toPos.row - fromPos.row)
  let stepC := sign (toPos.col - fromPos.col)
  (isPathClearLoop board toPos stepR stepC (distance fromPos toPos + 1)
    (fromPos.row + stepR) (fromPos.col + stepC)).getD false

def isStraightMove (fromPos toPos : Position) : Bool :=
  fromPos.row = toPos.row || fromPos.col = toPos.col

def isDiagonalMove (fromPos toPos : Position) : Bool :=
  let dr := toPos.row - fromPos.row
  let dc := toPos.col - fromPos.col
  dr.natAbs = dc.natAbs && dr ≠ 0

def canSlideStraight (board : Board) (fromPos toPos : Position) : Bool :=
  isStraightMove fromPos toPos && isPathClear board fromPos toPos

def canSlideDiagonal (board : Board) (fromPos toPos : Position) : Bool :=
  isDiagonalMove fromPos toPos && isPathClear board fromPos toPos

/-- The common signature of the movement classes. -/
abbrev PieceMovement := Board → Position → Position → Piece → Bool

def kingMovement : PieceMovement := fun _ fromPos toPos _ ↦
  let dr := (toPos.row - fromPos.row).natAbs
  let dc := (toPos.col - fromPos.col).natAbs
  dr ≤ 1 && dc ≤ 1 && (dr ≠ 0 || dc ≠ 0)

def rookMovement : PieceMovement := fun board fromPos toPos _ ↦
  canSlideStraight board fromPos toPos

def bishopMovement : PieceMovement := fun board fromPos toPos _ ↦
  canSlideDiagonal board fromPos toPos

def queenMovement : PieceMovement := fun board fromPos toPos _ ↦
  canSlideStraight board fromPos toPos || canSlideDiagonal board fromPos toPos

def knightMovement : PieceMovement := fun _ fromPos toPos _ ↦
  let dr := (toPos.row - fromPos.row).natAbs
  let dc := (toPos.col - fromPos.col).natAbs
  (dr = 1 && dc = 2) || (dr = 2 && dc = 1)

def pawnMovement : PieceMovement := fun board fromPos toPos piece ↦
  let dr := toPos.row - fromPos.row
  let dc := toPos.col - fromPos.col
  let destination := board.cell toPos
  let forwardDr : ℤ := if piece.color = .white then -1 else 1
  if dr = forwardDr ∧ dc = 0 then
    destination.isEmpty
  else if dr = 2 * forwardDr ∧ dc = 0 then
    if piece.hasMoved then false
    else
      let homeRank : ℤ := if piece.color = .white then board.rows - 2 else 1
      if fromPos.row ≠ homeRank then false
      else
        let intermediateR := fromPos.row + forwardDr
        (board.cell ⟨intermediateR, fromPos.col⟩).isEmpty && destination.isEmpty
  else if dr = forwardDr ∧ dc.natAbs = 1 then
    !destination.isEmpty && !destination.isFriendly piece.color
  else false

def movementFor : PieceType → Option PieceMovement
  | .king => some kingMovement
  | .queen => some queenMovement
  | .rook => some rookMovement
  | .bishop => some bishopMovement
  | .knight => some knightMovement
  | .pawn => some pawnMovement
  | .empty => none

def canMove (board : Board) (fromPos toPos : Position) : Bool :=
  if fromPos = toPos then false
  else if !board.inBounds fromPos || !board.inBounds toPos then false
  else
    let piece := board.cell fromPos
    if piece.isEmpty then false
    else
      match movementFor piece.type with
      | none => false
      | some movement =>
        if !movement board fromPos toPos piece then false
        else
          let destination := board.cell toPos
          if !destination.isEmpty && destination.isFriendly piece.color then false
          else true

def validateMove (board : Board) (fromPos toPos : Position) : Bool :=
  if !board.inBounds fromPos || !board.inBounds toPos then false
  else
    let piece := board.cell fromPos
    if piece.isEmpty then false
    else if piece.moveCooldownRemainingMs > 0 then false
    else canMove board fromPos toPos

/-- What an accepted move guarantees about its two squares. -/
structure Validated (board : Board) (fromPos toPos : Position) : Prop where
  ne : fromPos ≠ toPos
  inBounds_from : board.inBounds fromPos = true
  inBounds_to : board.inBounds toPos = true
  occupied : (board.cell fromPos).isEmpty = false
  rested : (board.cell fromPos).moveCooldownRemainingMs ≤ 0
  not_friendly : (board.cell toPos).isFriendly (board.cell fromPos).color = false

theorem validated_of_validateMove {board : Board} {fromPos toPos : Position}
    (h : validateMove board fromPos toPos = true) : Validated board fromPos toPos := by
  unfold validateMove at h
  split at h
  · exact absurd h Bool.false_ne_true
  rename_i hbounds
  simp only [Bool.or_eq_true, Bool.not_eq_eq_eq_not, Bool.not_true, not_or,
    Bool.not_eq_false] at hbounds
  simp only at h
  split at h
  · exact absurd h Bool.false_ne_true
  rename_i hoccupied
  split at h
  · exact absurd h Bool.false_ne_true
  rename_i hrested
  unfold canMove at h
  split at h
  · exact absurd h Bool.false_ne_true
  rename_i hne
  refine ⟨hne, hbounds.1, hbounds.2, by simpa using hoccupied, by omega, ?_⟩
  rw [if_neg (by simp [hbounds])] at h
  simp only at h
  rw [if_neg hoccupied] at h
  split at h
  · exact absurd h Bool.false_ne_true
  · split at h
    · exact absurd h Bool.false_ne_true
    · simp only [Bool.if_false_left, Bool.and_eq_true, Bool.not_eq_true'] at h
      by_contra hfriendly
      simp_all [Piece.isFriendly]

end KongFuChess.Rules
