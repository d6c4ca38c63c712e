import KongFuChess.Library.Footprint
import KongFuChess.Rules.Chess

/-!
# What move validation reads

The movement rules index the board without checks, and the path loop of the sliding pieces has no
bound of its own. Here the rules are run once more with the cells they read. Each recorded rule
takes the fuel of the path loop: with more fuel than king steps between the two squares it ends with
the value of the rule, and with any fuel at all it reads squares of the board only.
-/

namespace KongFuChess.Rules

open Model

namespace Traced

/-- A run that reads cells of the board. -/
abbrev Run := Footprint Position

def cell (board : Board) (pos : Position) : Run Piece := Footprint.read pos (board.cell pos)

def isPathClearLoop (board : Board) (toPos : Position) (stepR stepC : ℤ) : ℕ → ℤ → ℤ → Run Bool
  | 0, _, _ => Footprint.stuck
  | fuel + 1, r, c =>
    if r ≠ toPos.row ∨ c ≠ toPos.col then do
      let piece ← cell board ⟨r, c⟩
      if !piece.isEmpty then return false
      else isPathClearLoop board toPos stepR stepC fuel (r + stepR) (c + stepC)
    else return true

def isPathClear (fuel : ℕ) (board : Board) (fromPos toPos : Position) : Run Bool :=
  let stepR := sign (toPos.row - fromPos.row)
  let stepC := sign (toPos.col - fromPos.col)
  isPathClearLoop board toPos stepR stepC fuel (fromPos.row + stepR) (fromPos.col + stepC)

def canSlideStraight (fuel : ℕ) (board : Board) (fromPos toPos : Position) : Run Bool :=
  if isStraightMove fromPos toPos then isPathClear fuel board fromPos toPos else return false

def canSlideDiagonal (fuel : ℕ) (board : Board) (fromPos toPos : Position) : Run Bool :=
  if isDiagonalMove fromPos toPos then isPathClear fuel board fromPos toPos else return false

/-- A movement class with the fuel for its path loop. -/
abbrev PieceMovement := ℕ → Board → Position → Position → Piece → Run Bool

def kingMovement : PieceMovement := fun _ board fromPos toPos piece ↦
  return Rules.kingMovement board fromPos toPos piece

def rookMovement : PieceMovement := fun fuel board fromPos toPos _ ↦
  canSlideStraight fuel board fromPos toPos

def bishopMovement : PieceMovement := fun fuel board fromPos toPos _ ↦
  canSlideDiagonal fuel board fromPos toPos

def queenMovement : PieceMovement := fun fuel board fromPos toPos _ ↦ do
  if ← canSlideStraight fuel board fromPos toPos then return true
  else canSlideDiagonal fuel board fromPos toPos

def knightMovement : PieceMovement := fun _ board fromPos toPos piece ↦
  return Rules.knightMovement board fromPos toPos piece

/-- The destination is read first, whatever the shape of the move. -/
def pawnMovement : PieceMovement := fun _ board fromPos toPos piece ↦ do
  let dr := toPos.row - fromPos.row
  let dc := toPos.col - fromPos.col
  let destination ← cell board toPos
  let forwardDr : ℤ := if piece.color = .white then -1 else 1
  if dr = forwardDr ∧ dc = 0 then
    return destination.isEmpty
  else if dr = 2 * forwardDr ∧ dc = 0 then
    if piece.hasMoved then return false
    else
      let homeRank : ℤ := if piece.color = .white then board.rows - 2 else 1
      if fromPos.row ≠ homeRank then return false
      else
        let intermediateR := fromPos.row + forwardDr
        let intermediate ← cell board ⟨intermediateR, fromPos.col⟩
        return intermediate.isEmpty && destination.isEmpty
  else if dr = forwardDr ∧ dc.natAbs = 1 then
    return !destination.isEmpty && !destination.isFriendly piece.color
  else return false

def movementFor : PieceType → Option PieceMovement
  | .king => some kingMovement
  | .queen => some queenMovement
  | .rook => some rookMovement
  | .bishop => some bishopMovement
  | .knight => some knightMovement
  | .pawn => some pawnMovement
  | .empty => none

def canMove (fuel : ℕ) (board : Board) (fromPos toPos : Position) : Run Bool :=
  if fromPos = toPos then return false
  else if !board.inBounds fromPos || !board.inBounds toPos then return false
  else do
    let piece ← cell board fromPos
    if piece.isEmpty then return false
    else
      match movementFor piece.type with
      | none => return false
      | some movement =>
        let allowed ← movement fuel board fromPos toPos piece
        if !allowed then return false
        else
          let destination ← cell board toPos
          if !destination.isEmpty && destination.isFriendly piece.color then return false
          else return true

def validateMove (fuel : ℕ) (board : Board) (fromPos toPos : Position) : Run Bool :=
  if !board.inBounds fromPos || !board.inBounds toPos then return false
  else do
    let piece ← cell board fromPos
    if piece.isEmpty then return false
    else if piece.moveCooldownRemainingMs > 0 then return false
    else canMove fuel board fromPos toPos

end Traced

/-! ## The path -/

/-- The squares the path loop is about to visit, from `(r, c)` on. -/
def path (r c stepR stepC : ℤ) (count : ℕ) : List Position :=
  (List.range count).map fun index : ℕ ↦ ⟨r + index * stepR, c + index * stepC⟩

/-- The squares strictly between the ends of a line, from the first to the last. -/
def squaresBetween (fromPos toPos : Position) : List Position :=
  let stepR := sign (toPos.row - fromPos.row)
  let stepC := sign (toPos.col - fromPos.col)
  path (fromPos.row + stepR) (fromPos.col + stepC) stepR stepC (distance fromPos toPos - 1)

/-- The squares of a path up to the first occupied one, which is the last to be visited. -/
def visited (board : Board) : List Position → List Position
  | [] => []
  | pos :: rest => if (board.cell pos).isEmpty then pos :: visited board rest else [pos]

@[simp]
theorem length_path (r c stepR stepC : ℤ) (count : ℕ) :
    (path r c stepR stepC count).length = count := by
  rw [path, List.length_map, List.length_range]

theorem length_squaresBetween (fromPos toPos : Position) :
    (squaresBetween fromPos toPos).length = distance fromPos toPos - 1 := length_path ..

theorem path_succ (r c stepR stepC : ℤ) (count : ℕ) :
    path r c stepR stepC (count + 1) =
      ⟨r, c⟩ :: path (r + stepR) (c + stepC) stepR stepC count := by
  unfold path
  rw [List.range_succ_eq_map, List.map_cons, List.map_map]
  congr 1
  · simp
  · apply List.map_congr_left
    intro index _
    exact (shift_index ..).symm

theorem visited_isPrefix (board : Board) (squares : List Position) :
    visited board squares <+: squares := by
  induction squares with
  | nil => exact List.prefix_refl _
  | cons pos rest ih =>
    rw [visited]
    split
    · exact (List.prefix_cons_inj pos).2 ih
    · exact (List.prefix_cons_inj pos).2 (List.nil_prefix)

/-- The whole path is visited when at most its last square is occupied. -/
theorem length_visited_iff (board : Board) (squares : List Position) :
    (visited board squares).length = squares.length ↔
      ∀ pos ∈ squares.dropLast, (board.cell pos).isEmpty = true := by
  induction squares with
  | nil => simp [visited]
  | cons pos rest ih =>
    rw [visited]
    cases rest with
    | nil => split <;> simp [visited]
    | cons next rest =>
      rw [List.dropLast_cons_cons, List.forall_mem_cons]
      split
      · rename_i hempty
        rw [List.length_cons, List.length_cons, Nat.succ_inj, ih]
        exact (and_iff_right hempty).symm
      · rename_i hfull
        constructor
        · intro hlength
          simp at hlength
        · intro h
          exact absurd h.1 hfull

/-! ## The path loop -/

section Line

variable (board : Board) {fromPos toPos : Position} {stepR stepC : ℤ} {count : ℕ}

/-- Recording the reads does not change the loop. -/
theorem value_isPathClearLoop (fuel : ℕ) (r c : ℤ) :
    (Traced.isPathClearLoop board toPos stepR stepC fuel r c).value =
      isPathClearLoop board toPos stepR stepC fuel r c := by
  induction fuel generalizing r c with
  | zero => rfl
  | succ fuel ih =>
    rw [Traced.isPathClearLoop, isPathClearLoop]
    split
    · rw [Traced.cell, Footprint.read_bind_value]
      split
      · rfl
      · exact ih ..
    · rfl

/-- On a line the loop visits its squares until it meets an occupied one or runs out of fuel. -/
theorem reads_isPathClearLoop {r c : ℤ} (hrow : toPos.row = r + count * stepR)
    (hcol : toPos.col = c + count * stepC) (hmoves : stepR ≠ 0 ∨ stepC ≠ 0) (fuel : ℕ) :
    (Traced.isPathClearLoop board toPos stepR stepC fuel r c).reads =
      visited board ((path r c stepR stepC count).take fuel) := by
  induction count generalizing r c fuel with
  | zero =>
    cases fuel with
    | zero => rfl
    | succ fuel =>
      have hend : ¬ (r ≠ toPos.row ∨ c ≠ toPos.col) := by
        rw [hrow, hcol]
        simp
      rw [Traced.isPathClearLoop, if_neg hend]
      rfl
  | succ count ih =>
    cases fuel with
    | zero => rfl
    | succ fuel =>
      rw [Traced.isPathClearLoop, if_pos (ne_of_step_left hrow hcol hmoves), path_succ,
        List.take_succ_cons, visited, Traced.cell, Footprint.read_bind_reads]
      cases hempty : (board.cell ⟨r, c⟩).isEmpty with
      | true => rw [if_neg (by decide), if_pos rfl, ih (eq_add_step hrow) (eq_add_step hcol)]
      | false => rw [if_pos (by decide), if_neg Bool.false_ne_true, Footprint.reads_pure]

end Line

section Between

variable {fromPos toPos : Position}

theorem mem_squaresBetween_iff (hne : fromPos ≠ toPos) (haligned : Aligned fromPos toPos)
    {pos : Position} : pos ∈ squaresBetween fromPos toPos ↔ Between fromPos toPos pos := by
  obtain ⟨count, hcount, hrow, hcol, hmoves⟩ := haligned.exists_count hne
  rw [squaresBetween, hcount, Nat.add_sub_cancel]
  unfold path
  simp only [List.mem_map, List.mem_range, shift_index]
  constructor
  · rintro ⟨index, hindex, rfl⟩
    exact between_of_index hrow hcol (natAbs_sign_le _) (natAbs_sign_le _) hmoves
      (Nat.succ_pos index) (Nat.succ_lt_succ hindex)
  · intro h
    obtain ⟨index, hindex, hlt, heq⟩ :=
      exists_of_between hrow hcol (natAbs_sign_le _) (natAbs_sign_le _) hmoves h
    obtain ⟨previous, rfl⟩ : ∃ previous, index = previous + 1 := ⟨index - 1, by omega⟩
    exact ⟨previous, Nat.lt_of_succ_lt_succ hlt, heq.symm⟩

theorem Between.inBounds {board : Board} {pos : Position} (h : Between fromPos toPos pos)
    (hfrom : board.inBounds fromPos = true) (hto : board.inBounds toPos = true) :
    board.inBounds pos = true := by
  rw [Board.inBounds_iff] at hfrom hto ⊢
  have hrow := h.row_mem
  have hcol := h.col_mem
  unfold Grid.InBounds at hfrom hto ⊢
  omega

/-- On a line the loop of `isPathClear` visits the squares strictly between the ends in order, up
to the first occupied one. -/
theorem reads_isPathClear (board : Board) (hne : fromPos ≠ toPos) (haligned : Aligned fromPos toPos)
    (fuel : ℕ) : (Traced.isPathClear fuel board fromPos toPos).reads =
      visited board ((squaresBetween fromPos toPos).take fuel) := by
  obtain ⟨count, hcount, hrow, hcol, hmoves⟩ := haligned.exists_count hne
  rw [Traced.isPathClear, reads_isPathClearLoop board (eq_add_step hrow) (eq_add_step hcol) hmoves,
    squaresBetween, hcount, Nat.add_sub_cancel]

end Between

/-! ## The movement tests -/

/-- The recorded computation reads squares of the board only and ends, given more fuel than the
given number of steps, with the value of the program. -/
abbrev Records {Value : Type} (board : Board) (steps : ℕ) (run : ℕ → Traced.Run Value)
    (value : Value) : Prop :=
  Footprint.EndsWithin (fun pos ↦ board.inBounds pos = true) steps run value

section Tests

variable {board : Board} {fromPos toPos : Position}

theorem records_cell {pos : Position} (hpos : board.inBounds pos = true) {steps : ℕ} :
    Records board steps (fun _ ↦ Traced.cell board pos) (board.cell pos) :=
  Footprint.EndsWithin.read (board.cell pos) hpos

theorem records_isPathClear (hne : fromPos ≠ toPos) (haligned : Aligned fromPos toPos)
    (hfrom : board.inBounds fromPos = true) (hto : board.inBounds toPos = true) :
    Records board (distance fromPos toPos)
      (fun fuel ↦ Traced.isPathClear fuel board fromPos toPos)
      (isPathClear board fromPos toPos) := by
  obtain ⟨count, hcount, hrow, hcol, hmoves⟩ := haligned.exists_count hne
  have hends := isSome_isPathClearLoop board (eq_add_step hrow) (eq_add_step hcol) hmoves
    (Nat.lt_succ_of_lt (Nat.lt_succ_self count))
  obtain ⟨answer, hanswer⟩ := Option.isSome_iff_exists.1 hends
  have hclear : isPathClear board fromPos toPos = answer := by
    rw [isPathClear, hcount, hanswer, Option.getD_some]
  rw [hclear]
  constructor
  · intro fuel pos hpos
    rw [reads_isPathClear board hne haligned] at hpos
    have hmem := List.mem_of_mem_take ((visited_isPrefix board _).subset hpos)
    exact ((mem_squaresBetween_iff hne haligned).1 hmem).inBounds hfrom hto
  · intro fuel hfuel
    rw [Traced.isPathClear, value_isPathClearLoop]
    exact isPathClearLoop_mono hanswer (by omega)
  · intro fuel value hvalue
    rw [Traced.isPathClear, value_isPathClearLoop] at hvalue
    -- With the larger of the two amounts of fuel both answers are given.
    have hleft := isPathClearLoop_mono hvalue (le_max_left fuel (count + 1 + 1))
    have hright := isPathClearLoop_mono hanswer (le_max_right fuel (count + 1 + 1))
    exact Option.some.inj (hleft.symm.trans hright)

theorem aligned_of_isStraightMove (h : isStraightMove fromPos toPos = true) :
    Aligned fromPos toPos := by
  rw [isStraightMove, Bool.or_eq_true, decide_eq_true_eq, decide_eq_true_eq] at h
  exact h.imp_right .inl

theorem aligned_of_isDiagonalMove (h : isDiagonalMove fromPos toPos = true) :
    Aligned fromPos toPos := by
  simp only [isDiagonalMove, Bool.and_eq_true, decide_eq_true_eq] at h
  exact .inr (.inr h.1)

theorem records_canSlideStraight (hne : fromPos ≠ toPos) (hfrom : board.inBounds fromPos = true)
    (hto : board.inBounds toPos = true) :
    Records board (distance fromPos toPos)
      (fun fuel ↦ Traced.canSlideStraight fuel board fromPos toPos)
      (canSlideStraight board fromPos toPos) := by
  unfold Traced.canSlideStraight canSlideStraight
  cases h : isStraightMove fromPos toPos with
  | false => exact .pure false
  | true => exact records_isPathClear hne (aligned_of_isStraightMove h) hfrom hto

theorem records_canSlideDiagonal (hne : fromPos ≠ toPos) (hfrom : board.inBounds fromPos = true)
    (hto : board.inBounds toPos = true) :
    Records board (distance fromPos toPos)
      (fun fuel ↦ Traced.canSlideDiagonal fuel board fromPos toPos)
      (canSlideDiagonal board fromPos toPos) := by
  unfold Traced.canSlideDiagonal canSlideDiagonal
  cases h : isDiagonalMove fromPos toPos with
  | false => exact .pure false
  | true => exact records_isPathClear hne (aligned_of_isDiagonalMove h) hfrom hto

theorem records_queenMovement (hne : fromPos ≠ toPos) (hfrom : board.inBounds fromPos = true)
    (hto : board.inBounds toPos = true) (piece : Piece) :
    Records board (distance fromPos toPos)
      (fun fuel ↦ Traced.queenMovement fuel board fromPos toPos piece)
      (queenMovement board fromPos toPos piece) := by
  apply (records_canSlideStraight hne hfrom hto).bind
  rw [queenMovement]
  cases canSlideStraight board fromPos toPos with
  | true => exact .pure true
  | false => exact records_canSlideDiagonal hne hfrom hto

/-- The square a pawn passes lies between its two squares. -/
theorem records_pawnMovement (hfrom : board.inBounds fromPos = true)
    (hto : board.inBounds toPos = true) (piece : Piece) :
    Records board (distance fromPos toPos)
      (fun fuel ↦ Traced.pawnMovement fuel board fromPos toPos piece)
      (pawnMovement board fromPos toPos piece) := by
  apply (records_cell hto).bind
  rw [pawnMovement]
  simp only
  generalize (if piece.color = Color.white then (-1 : ℤ) else 1) = forwardDr
  generalize (if piece.color = Color.white then (board.rows : ℤ) - 2 else 1) = homeRank
  split
  · exact .pure _
  · split
    · rename_i hsteps
      split
      · exact .pure _
      · split
        · exact .pure _
        · have hpassed : board.inBounds ⟨fromPos.row + forwardDr, fromPos.col⟩ = true := by
            rw [Board.inBounds_iff] at hfrom hto ⊢
            unfold Grid.InBounds at hfrom hto ⊢
            simp only
            omega
          exact (records_cell hpassed).bind (.pure _)
    · split
      · exact .pure _
      · exact .pure _

/-- The recorded movement classes are those of the program. -/
theorem records_movementFor (hne : fromPos ≠ toPos) (hfrom : board.inBounds fromPos = true)
    (hto : board.inBounds toPos = true) (piece : Piece) :
    (Traced.movementFor piece.type = none ∧ movementFor piece.type = none) ∨
      ∃ traced movement, Traced.movementFor piece.type = some traced ∧
        movementFor piece.type = some movement ∧
        Records board (distance fromPos toPos)
          (fun fuel ↦ traced fuel board fromPos toPos piece)
          (movement board fromPos toPos piece) := by
  cases piece.type with
  | empty => exact .inl ⟨rfl, rfl⟩
  | king => exact .inr ⟨_, _, rfl, rfl, .pure _⟩
  | queen => exact .inr ⟨_, _, rfl, rfl, records_queenMovement hne hfrom hto piece⟩
  | rook => exact .inr ⟨_, _, rfl, rfl, records_canSlideStraight hne hfrom hto⟩
  | bishop => exact .inr ⟨_, _, rfl, rfl, records_canSlideDiagonal hne hfrom hto⟩
  | knight => exact .inr ⟨_, _, rfl, rfl, .pure _⟩
  | pawn => exact .inr ⟨_, _, rfl, rfl, records_pawnMovement hfrom hto piece⟩

end Tests

section Validation

variable (board : Board) (fromPos toPos : Position)

theorem records_canMove : Records board (distance fromPos toPos)
    (fun fuel ↦ Traced.canMove fuel board fromPos toPos) (canMove board fromPos toPos) := by
  unfold Traced.canMove canMove
  by_cases hne : fromPos = toPos
  · simp only [if_pos hne]
    exact .pure false
  simp only [if_neg hne]
  cases hbounds : !board.inBounds fromPos || !board.inBounds toPos with
  | true => exact .pure false
  | false =>
    rw [Bool.or_eq_false_iff, Bool.not_eq_false', Bool.not_eq_false'] at hbounds
    obtain ⟨hfrom, hto⟩ := hbounds
    simp only [Bool.false_eq_true, ↓reduceIte]
    apply (records_cell hfrom).bind
    cases hempty : (board.cell fromPos).isEmpty with
    | true => exact .pure false
    | false =>
      obtain ⟨htraced, hmovement⟩ | ⟨traced, movement, htraced, hmovement, hrecords⟩ :=
        records_movementFor hne hfrom hto (board.cell fromPos)
      · rw [htraced, hmovement]
        exact .pure false
      · rw [htraced, hmovement]
        apply hrecords.bind
        simp only [Bool.false_eq_true, ↓reduceIte]
        cases movement board fromPos toPos (board.cell fromPos) with
        | false => exact .pure false
        | true =>
          simp only [Bool.not_true, Bool.false_eq_true, ↓reduceIte]
          apply (records_cell hto).bind
          split
          · exact .pure false
          · exact .pure true

theorem records_validateMove : Records board (distance fromPos toPos)
    (fun fuel ↦ Traced.validateMove fuel board fromPos toPos)
    (validateMove board fromPos toPos) := by
  unfold Traced.validateMove validateMove
  cases hbounds : !board.inBounds fromPos || !board.inBounds toPos with
  | true => exact .pure false
  | false =>
    rw [Bool.or_eq_false_iff, Bool.not_eq_false'] at hbounds
    simp only [Bool.false_eq_true, ↓reduceIte]
    apply (records_cell hbounds.1).bind
    cases hempty : (board.cell fromPos).isEmpty with
    | true => exact .pure false
    | false =>
      by_cases hresting : (board.cell fromPos).moveCooldownRemainingMs > 0
      · simp only [if_pos hresting]
        exact .pure false
      · simp only [if_neg hresting]
        exact records_canMove board fromPos toPos

/-- Validation comes to an end and reads squares of the board only. The loop of the sliding pieces
visits the squares between the ends in order and stops at the first occupied one, so it visits them
all exactly when none but the last is occupied. -/
theorem validation_ends_on_board :
    (∀ fuel, (Traced.validateMove fuel board fromPos toPos).Within (board.inBounds · = true) ∧
      (Traced.canMove fuel board fromPos toPos).Within (board.inBounds · = true)) ∧
    (∀ fuel, distance fromPos toPos < fuel →
      (Traced.validateMove fuel board fromPos toPos).value =
          some (validateMove board fromPos toPos) ∧
        (Traced.canMove fuel board fromPos toPos).value = some (canMove board fromPos toPos)) ∧
    (fromPos ≠ toPos → isStraightMove fromPos toPos = true ∨ isDiagonalMove fromPos toPos = true →
      ∀ fuel, distance fromPos toPos < fuel →
        (Traced.isPathClear fuel board fromPos toPos).reads =
          visited board (squaresBetween fromPos toPos) ∧
        (Traced.isPathClear fuel board fromPos toPos).reads <+: squaresBetween fromPos toPos ∧
        (squaresBetween fromPos toPos).length = distance fromPos toPos - 1 ∧
        ((Traced.isPathClear fuel board fromPos toPos).reads.length = distance fromPos toPos - 1 ↔
          ∀ pos ∈ (squaresBetween fromPos toPos).dropLast,
            (board.cell pos).isEmpty = true)) := by
  have hvalidate := records_validateMove board fromPos toPos
  have hcan := records_canMove board fromPos toPos
  refine ⟨fun fuel ↦ ⟨hvalidate.within fuel, hcan.within fuel⟩,
    fun fuel hfuel ↦ ⟨hvalidate.value_eq fuel hfuel, hcan.value_eq fuel hfuel⟩, ?_⟩
  intro hne hline fuel hfuel
  have haligned := hline.elim aligned_of_isStraightMove aligned_of_isDiagonalMove
  have hlength := length_squaresBetween fromPos toPos
  have hreads : (Traced.isPathClear fuel board fromPos toPos).reads =
      visited board (squaresBetween fromPos toPos) := by
    rw [reads_isPathClear board hne haligned, List.take_of_length_le (by omega)]
  rw [hreads]
  refine ⟨rfl, visited_isPrefix board _, hlength, ?_⟩
  rw [← hlength]
  exact length_visited_iff board _

/-- A rook at the left end of a row with a pawn next to it. -/
def blockedRookBoard : Board where
  cells := [[.of .rook .white, .of .pawn .white, .empty, .empty]]
  rectangular := by decide

/-- The pawn is the only square the path loop visits, though two squares lie in between. -/
theorem blockedRook_visits_one_square :
    isStraightMove ⟨0, 0⟩ ⟨0, 3⟩ = true ∧ distance ⟨0, 0⟩ ⟨0, 3⟩ - 1 = 2 ∧
      (Traced.isPathClear 4 blockedRookBoard ⟨0, 0⟩ ⟨0, 3⟩).value = some false ∧
      (Traced.isPathClear 4 blockedRookBoard ⟨0, 0⟩ ⟨0, 3⟩).reads = [⟨0, 1⟩] ∧
      (Traced.validateMove 4 blockedRookBoard ⟨0, 0⟩ ⟨0, 3⟩).value = some false ∧
      (Traced.validateMove 4 blockedRookBoard ⟨0, 0⟩ ⟨0, 3⟩).reads =
        [⟨0, 0⟩, ⟨0, 0⟩, ⟨0, 1⟩] := by
  decide

end Validation

end KongFuChess.Rules
