import KongFuChess.Rules.Movement
import Mathlib.Tactic.Ring

/-!
# The moves of chess

What each kind of piece may do, stated on squares and lines. The movement tests of the program agree
with it on every board; for the sliding pieces this says that the path loop visits exactly the
squares strictly between the two ends.
-/

namespace KongFuChess.Rules

open Model

/-- The square lies on the segment between two squares and is neither of them. -/
structure Between (fromPos toPos pos : Position) : Prop where
  ne_from : pos ≠ fromPos
  ne_to : pos ≠ toPos
  row_mem : min fromPos.row toPos.row ≤ pos.row ∧ pos.row ≤ max fromPos.row toPos.row
  col_mem : min fromPos.col toPos.col ≤ pos.col ∧ pos.col ≤ max fromPos.col toPos.col
  on_line : (pos.row - fromPos.row) * (toPos.col - fromPos.col) =
    (pos.col - fromPos.col) * (toPos.row - fromPos.row)

/-- Every square strictly between the two is empty. -/
def ClearBetween (board : Board) (fromPos toPos : Position) : Prop :=
  ∀ pos, Between fromPos toPos pos → (board.cell pos).isEmpty = true

/-- The distances between two squares. -/
def rowDistance (fromPos toPos : Position) : ℕ := (toPos.row - fromPos.row).natAbs

def colDistance (fromPos toPos : Position) : ℕ := (toPos.col - fromPos.col).natAbs

def RookMove (board : Board) (fromPos toPos : Position) : Prop :=
  (fromPos.row = toPos.row ∨ fromPos.col = toPos.col) ∧ ClearBetween board fromPos toPos

def BishopMove (board : Board) (fromPos toPos : Position) : Prop :=
  rowDistance fromPos toPos = colDistance fromPos toPos ∧ ClearBetween board fromPos toPos

/-- White moves up the board, to smaller rows. -/
def forwardRow (color : Color) : ℤ := if color = .white then -1 else 1

def homeRank (board : Board) (color : Color) : ℤ := if color = .white then board.rows - 2 else 1

/-- One step, two steps from the home rank, or a diagonal step onto an enemy piece. -/
inductive PawnMove (board : Board) (fromPos toPos : Position) (pawn : Piece) : Prop
  | step (row : toPos.row = fromPos.row + forwardRow pawn.color) (col : toPos.col = fromPos.col)
      (free : (board.cell toPos).isEmpty = true)
  | twoSteps (row : toPos.row = fromPos.row + 2 * forwardRow pawn.color)
      (col : toPos.col = fromPos.col) (home : fromPos.row = homeRank board pawn.color)
      (unmoved : pawn.hasMoved = false)
      (passed : (board.cell ⟨fromPos.row + forwardRow pawn.color, fromPos.col⟩).isEmpty = true)
      (free : (board.cell toPos).isEmpty = true)
  | takes (row : toPos.row = fromPos.row + forwardRow pawn.color)
      (col : colDistance fromPos toPos = 1) (enemy : (board.cell toPos).isEmpty = false)
      (enemy_color : (board.cell toPos).color ≠ pawn.color)

/-- The moves of a piece on the board. -/
def PieceMove (board : Board) (fromPos toPos : Position) (piece : Piece) : Prop :=
  match piece.type with
  | .king => rowDistance fromPos toPos ≤ 1 ∧ colDistance fromPos toPos ≤ 1
  | .queen => RookMove board fromPos toPos ∨ BishopMove board fromPos toPos
  | .rook => RookMove board fromPos toPos
  | .bishop => BishopMove board fromPos toPos
  | .knight =>
    (rowDistance fromPos toPos = 1 ∧ colDistance fromPos toPos = 2) ∨
      (rowDistance fromPos toPos = 2 ∧ colDistance fromPos toPos = 1)
  | .pawn => PawnMove board fromPos toPos piece
  | .empty => False

/-- A legal move of the piece on the first square. -/
structure LegalMove (board : Board) (fromPos toPos : Position) : Prop where
  ne : fromPos ≠ toPos
  inBounds_from : board.inBounds fromPos = true
  inBounds_to : board.inBounds toPos = true
  occupied : (board.cell fromPos).isEmpty = false
  not_own : ¬ ((board.cell toPos).isEmpty = false ∧
    (board.cell toPos).color = (board.cell fromPos).color)
  pieceMove : PieceMove board fromPos toPos (board.cell fromPos)

/-! ## The path loop -/

section Line

variable {fromPos toPos : Position} {stepR stepC : ℤ} {count : ℕ}

/-- On one coordinate the line passes through all numbers between its ends. -/
theorem offset_eq {start stop x step : ℤ} (hstop : stop = start + count * step)
    (hstep : step.natAbs ≤ 1) (hmem : min start stop ≤ x ∧ x ≤ max start stop) :
    x = start + (x - start).natAbs * step ∧ (x - start).natAbs ≤ count := by
  obtain rfl | rfl | rfl : step = -1 ∨ step = 0 ∨ step = 1 := by omega
  · omega
  · omega
  · omega

theorem offset_mem {start stop step : ℤ} (hstop : stop = start + count * step)
    (hstep : step.natAbs ≤ 1) {index : ℕ} (hindex : index < count) :
    min start stop ≤ start + index * step ∧ start + index * step ≤ max start stop := by
  obtain rfl | rfl | rfl : step = -1 ∨ step = 0 ∨ step = 1 := by omega
  · omega
  · omega
  · omega

/-- As many steps lead to the square on one coordinate as on the other, unless the line does not
move on it. -/
theorem offset_le {rowSteps colSteps : ℕ} (hcol : stepC = 0 → colSteps = 0) (hstepR : stepR ≠ 0)
    (hcross : rowSteps * stepR * stepC = colSteps * stepC * stepR) : colSteps ≤ rowSteps := by
  by_cases hstepC : stepC = 0
  · rw [hcol hstepC]
    exact Nat.zero_le _
  · have hsteps : (rowSteps : ℤ) = colSteps := by
      apply mul_right_cancel₀ (mul_ne_zero hstepR hstepC)
      linarith
    omega

/-- A square strictly between the ends of a line is on the path. -/
theorem exists_of_between (hrow : toPos.row = fromPos.row + count * stepR)
    (hcol : toPos.col = fromPos.col + count * stepC) (hstepR : stepR.natAbs ≤ 1)
    (hstepC : stepC.natAbs ≤ 1) (hmoves : stepR ≠ 0 ∨ stepC ≠ 0) {pos : Position}
    (h : Between fromPos toPos pos) : ∃ index : ℕ, 0 < index ∧ index < count ∧
      pos = ⟨fromPos.row + index * stepR, fromPos.col + index * stepC⟩ := by
  obtain ⟨hrows, hrowsLe⟩ := offset_eq hrow hstepR h.row_mem
  obtain ⟨hcols, hcolsLe⟩ := offset_eq hcol hstepC h.col_mem
  -- The number of steps is the larger of the two distances.
  set rowSteps := (pos.row - fromPos.row).natAbs with hrowSteps
  set colSteps := (pos.col - fromPos.col).natAbs with hcolSteps
  have hsteps : 0 < max rowSteps colSteps := by
    by_contra hnone
    exact h.ne_from (Position.ext (by omega) (by omega))
  have hcross : rowSteps * stepR * stepC = colSteps * stepC * stepR := by
    have hcount : (count : ℤ) ≠ 0 := by omega
    have hline := h.on_line
    rw [hrow, hcol, hrows, hcols] at hline
    apply mul_left_cancel₀ hcount
    linarith
  have hrowZero : stepR = 0 → rowSteps = 0 := by
    rintro rfl
    omega
  have hcolZero : stepC = 0 → colSteps = 0 := by
    rintro rfl
    omega
  have hindexR : (max rowSteps colSteps : ℕ) * stepR = rowSteps * stepR := by
    by_cases hzero : stepR = 0
    · rw [hzero, mul_zero, mul_zero]
    · rw [max_eq_left (offset_le hcolZero hzero hcross)]
  have hindexC : (max rowSteps colSteps : ℕ) * stepC = colSteps * stepC := by
    by_cases hzero : stepC = 0
    · rw [hzero, mul_zero, mul_zero]
    · rw [max_eq_right (offset_le hrowZero hzero hcross.symm)]
  have hpos : pos = ⟨fromPos.row + (max rowSteps colSteps : ℕ) * stepR,
      fromPos.col + (max rowSteps colSteps : ℕ) * stepC⟩ := by
    rw [hindexR, hindexC, ← hrows, ← hcols]
  refine ⟨max rowSteps colSteps, hsteps, ?_, hpos⟩
  apply lt_of_le_of_ne (max_le hrowsLe hcolsLe)
  intro hend
  rw [hend, ← hrow, ← hcol] at hpos
  exact h.ne_to hpos

/-- The path lies strictly between the ends of the line. -/
theorem between_of_index (hrow : toPos.row = fromPos.row + count * stepR)
    (hcol : toPos.col = fromPos.col + count * stepC) (hstepR : stepR.natAbs ≤ 1)
    (hstepC : stepC.natAbs ≤ 1) (hmoves : stepR ≠ 0 ∨ stepC ≠ 0) {index : ℕ} (hpos : 0 < index)
    (hlt : index < count) :
    Between fromPos toPos ⟨fromPos.row + index * stepR, fromPos.col + index * stepC⟩ := by
  have hapart : ∀ other : ℕ, other ≠ index →
      ¬ (index * stepR = other * stepR ∧ index * stepC = other * stepC) := by
    rintro other hother ⟨hR, hC⟩
    rcases hmoves with hmoves | hmoves
    · exact hother (Int.ofNat.inj (mul_right_cancel₀ hmoves hR.symm))
    · exact hother (Int.ofNat.inj (mul_right_cancel₀ hmoves hC.symm))
  constructor
  · intro heq
    obtain ⟨hR, hC⟩ := Position.ext_iff.1 heq
    apply hapart 0 hpos.ne
    rw [Nat.cast_zero, zero_mul, zero_mul]
    exact ⟨add_eq_left.1 hR, add_eq_left.1 hC⟩
  · intro heq
    obtain ⟨hR, hC⟩ := Position.ext_iff.1 heq
    rw [hrow] at hR
    rw [hcol] at hC
    exact hapart count hlt.ne' ⟨add_left_cancel hR, add_left_cancel hC⟩
  · exact offset_mem hrow hstepR hlt
  · exact offset_mem hcol hstepC hlt
  · rw [hrow, hcol]
    simp only
    ring

theorem shift_index (r c stepR stepC : ℤ) (index : ℕ) :
    (⟨r + stepR + index * stepR, c + stepC + index * stepC⟩ : Position) =
      ⟨r + (index + 1 : ℕ) * stepR, c + (index + 1 : ℕ) * stepC⟩ := by
  push_cast
  apply Position.ext
  · simp only
    ring
  · simp only
    ring

/-- One step brings the end of a line one step nearer. -/
theorem eq_add_step {start stop step : ℤ} (h : stop = start + (count + 1 : ℕ) * step) :
    stop = start + step + count * step := by
  rw [h]
  push_cast
  ring

/-- A line with a step left has not arrived. -/
theorem ne_of_step_left {r c : ℤ} (hrow : toPos.row = r + (count + 1 : ℕ) * stepR)
    (hcol : toPos.col = c + (count + 1 : ℕ) * stepC) (hmoves : stepR ≠ 0 ∨ stepC ≠ 0) :
    r ≠ toPos.row ∨ c ≠ toPos.col := by
  have hcount : ((count + 1 : ℕ) : ℤ) ≠ 0 := by omega
  rcases hmoves with hmoves | hmoves
  · have hstep := mul_ne_zero hcount hmoves
    exact .inl (by omega)
  · have hstep := mul_ne_zero hcount hmoves
    exact .inr (by omega)

/-- The path loop reads the squares of the path one after another. -/
theorem isPathClearLoop_iff (board : Board) {r c : ℤ} {fuel : ℕ}
    (hrow : toPos.row = r + count * stepR) (hcol : toPos.col = c + count * stepC)
    (hmoves : stepR ≠ 0 ∨ stepC ≠ 0) (hfuel : count < fuel) :
    isPathClearLoop board toPos stepR stepC fuel r c = some true ↔
      ∀ index < count, (board.cell ⟨r + index * stepR, c + index * stepC⟩).isEmpty = true := by
  induction count generalizing r c fuel with
  | zero =>
    obtain ⟨fuel, rfl⟩ : ∃ rest, fuel = rest + 1 := ⟨fuel - 1, by omega⟩
    have hend : ¬ (r ≠ toPos.row ∨ c ≠ toPos.col) := by
      rw [hrow, hcol]
      simp
    rw [isPathClearLoop, if_neg hend]
    simp
  | succ count ih =>
    obtain ⟨fuel, rfl⟩ : ∃ rest, fuel = rest + 1 := ⟨fuel - 1, by omega⟩
    rw [isPathClearLoop, if_pos (ne_of_step_left hrow hcol hmoves)]
    by_cases hempty : (board.cell ⟨r, c⟩).isEmpty = true
    · have hrest := ih (eq_add_step hrow) (eq_add_step hcol) (by omega : count < fuel)
      rw [if_neg (by simp [hempty]), hrest]
      constructor
      · intro h index hindex
        cases index with
        | zero => simpa using hempty
        | succ index => exact shift_index .. ▸ h index (by omega)
      · intro h index hindex
        rw [shift_index]
        exact h (index + 1) (by omega)
    · rw [if_pos (by simpa using hempty)]
      constructor
      · intro h
        exact absurd (Option.some.inj h) Bool.false_ne_true
      · intro h
        exact absurd (by simpa using h 0 (by omega)) hempty

/-- With a step of fuel for each square the path loop comes to its end. -/
theorem isSome_isPathClearLoop (board : Board) {r c : ℤ} {fuel : ℕ}
    (hrow : toPos.row = r + count * stepR) (hcol : toPos.col = c + count * stepC)
    (hmoves : stepR ≠ 0 ∨ stepC ≠ 0) (hfuel : count < fuel) :
    (isPathClearLoop board toPos stepR stepC fuel r c).isSome = true := by
  induction count generalizing r c fuel with
  | zero =>
    obtain ⟨fuel, rfl⟩ : ∃ rest, fuel = rest + 1 := ⟨fuel - 1, by omega⟩
    have hend : ¬ (r ≠ toPos.row ∨ c ≠ toPos.col) := by
      rw [hrow, hcol]
      simp
    rw [isPathClearLoop, if_neg hend]
    rfl
  | succ count ih =>
    obtain ⟨fuel, rfl⟩ : ∃ rest, fuel = rest + 1 := ⟨fuel - 1, by omega⟩
    rw [isPathClearLoop, if_pos (ne_of_step_left hrow hcol hmoves)]
    split
    · rfl
    · exact ih (eq_add_step hrow) (eq_add_step hcol) (by omega)

/-- More fuel does not change the answer of the path loop. -/
theorem isPathClearLoop_mono {board : Board} {r c : ℤ} {fuel more : ℕ} {answer : Bool}
    (h : isPathClearLoop board toPos stepR stepC fuel r c = some answer) (hle : fuel ≤ more) :
    isPathClearLoop board toPos stepR stepC more r c = some answer := by
  induction fuel generalizing r c more with
  | zero => exact absurd h.symm (Option.some_ne_none answer)
  | succ fuel ih =>
    obtain ⟨more, rfl⟩ : ∃ rest, more = rest + 1 := ⟨more - 1, by omega⟩
    rw [isPathClearLoop] at h ⊢
    split at h
    · rename_i hahead
      rw [if_pos hahead]
      split at h
      · rename_i hfull
        rw [if_pos hfull]
        exact h
      · rename_i hempty
        rw [if_neg hempty]
        exact ih h (by omega)
    · rename_i hend
      rw [if_neg hend]
      exact h

end Line

theorem natAbs_mul_sign (delta : ℤ) : delta.natAbs * sign delta = delta := by
  unfold sign
  split
  · omega
  · split <;> omega

theorem natAbs_sign_le (delta : ℤ) : (sign delta).natAbs ≤ 1 := by
  unfold sign
  split
  · decide
  · split <;> decide

theorem sign_ne_zero {delta : ℤ} (h : delta ≠ 0) : sign delta ≠ 0 := by
  intro hsign
  have hdelta := natAbs_mul_sign delta
  rw [hsign, mul_zero] at hdelta
  exact h hdelta.symm

/-- The squares lie on one row, column or diagonal. -/
def Aligned (fromPos toPos : Position) : Prop :=
  fromPos.row = toPos.row ∨ fromPos.col = toPos.col ∨
    rowDistance fromPos toPos = colDistance fromPos toPos

/-- As many steps as king steps lead along the line to its end. -/
theorem Aligned.distance_mul_sign {fromPos toPos : Position} (h : Aligned fromPos toPos) :
    distance fromPos toPos * sign (toPos.row - fromPos.row) = toPos.row - fromPos.row ∧
      distance fromPos toPos * sign (toPos.col - fromPos.col) = toPos.col - fromPos.col := by
  have hscale : ∀ {delta : ℤ} {steps : ℕ}, delta = 0 ∨ delta.natAbs = steps →
      steps * sign delta = delta := by
    rintro delta steps (rfl | rfl)
    · exact mul_zero _
    · exact natAbs_mul_sign delta
  unfold Aligned rowDistance colDistance at h
  unfold distance
  constructor
  · exact hscale (by omega)
  · exact hscale (by omega)

/-- The steps of a line: there is one fewer square between its ends than king steps, and the first
step is made before the path loop starts. -/
theorem Aligned.exists_count {fromPos toPos : Position} (h : Aligned fromPos toPos)
    (hne : fromPos ≠ toPos) : ∃ count, distance fromPos toPos = count + 1 ∧
      toPos.row = fromPos.row + (count + 1 : ℕ) * sign (toPos.row - fromPos.row) ∧
      toPos.col = fromPos.col + (count + 1 : ℕ) * sign (toPos.col - fromPos.col) ∧
      (sign (toPos.row - fromPos.row) ≠ 0 ∨ sign (toPos.col - fromPos.col) ≠ 0) := by
  have hdelta : toPos.row - fromPos.row ≠ 0 ∨ toPos.col - fromPos.col ≠ 0 := by
    by_contra h
    exact hne (Position.ext (by omega) (by omega))
  obtain ⟨count, hcount⟩ : ∃ count, distance fromPos toPos = count + 1 := by
    refine ⟨distance fromPos toPos - 1, ?_⟩
    unfold distance
    omega
  obtain ⟨hrow, hcol⟩ := h.distance_mul_sign
  rw [hcount] at hrow hcol
  exact ⟨count, hcount, by linarith, by linarith, hdelta.imp sign_ne_zero sign_ne_zero⟩

/-- On a line the path is clear when every square strictly between the ends is empty. -/
theorem isPathClear_iff (board : Board) {fromPos toPos : Position} (hne : fromPos ≠ toPos)
    (haligned : Aligned fromPos toPos) :
    isPathClear board fromPos toPos = true ↔ ClearBetween board fromPos toPos := by
  obtain ⟨count, hcount, hrow, hcol, hmoves⟩ := haligned.exists_count hne
  rw [isPathClear, hcount]
  set stepR := sign (toPos.row - fromPos.row)
  set stepC := sign (toPos.col - fromPos.col)
  have hloop := isPathClearLoop_iff board (eq_add_step hrow) (eq_add_step hcol) hmoves
    (show count < count + 1 + 1 by omega)
  have hget : ∀ result : Option Bool, result.getD false = true ↔ result = some true := by
    intro result
    cases result <;> simp
  rw [hget, hloop]
  constructor
  · intro hclear pos hpos
    obtain ⟨index, hindex, hlt, rfl⟩ :=
      exists_of_between hrow hcol (natAbs_sign_le _) (natAbs_sign_le _) hmoves hpos
    obtain ⟨previous, rfl⟩ : ∃ previous, index = previous + 1 := ⟨index - 1, by omega⟩
    rw [← shift_index]
    exact hclear previous (by omega)
  · intro hclear index hindex
    rw [shift_index]
    exact hclear _ (between_of_index hrow hcol (natAbs_sign_le _) (natAbs_sign_le _) hmoves
      (show 0 < index + 1 by omega) (by omega))

/-! ## The movement tests -/

section Tests

variable (board : Board) {fromPos toPos : Position}

theorem canSlideStraight_iff (hne : fromPos ≠ toPos) :
    canSlideStraight board fromPos toPos = true ↔ RookMove board fromPos toPos := by
  rw [canSlideStraight, isStraightMove, Bool.and_eq_true, Bool.or_eq_true, decide_eq_true_eq,
    decide_eq_true_eq, RookMove]
  apply and_congr_right
  rintro (hrow | hcol)
  · exact isPathClear_iff board hne (.inl hrow)
  · exact isPathClear_iff board hne (.inr (.inl hcol))

theorem canSlideDiagonal_iff (hne : fromPos ≠ toPos) :
    canSlideDiagonal board fromPos toPos = true ↔ BishopMove board fromPos toPos := by
  have hdiagonal : isDiagonalMove fromPos toPos = true ↔
      rowDistance fromPos toPos = colDistance fromPos toPos := by
    rw [ne_eq, Position.ext_iff] at hne
    simp only [isDiagonalMove, Bool.and_eq_true, decide_eq_true_eq]
    unfold rowDistance colDistance
    omega
  rw [canSlideDiagonal, Bool.and_eq_true, hdiagonal, BishopMove]
  apply and_congr_right
  intro heq
  exact isPathClear_iff board hne (.inr (.inr heq))

theorem kingMovement_iff (hne : fromPos ≠ toPos) (piece : Piece) :
    kingMovement board fromPos toPos piece = true ↔
      rowDistance fromPos toPos ≤ 1 ∧ colDistance fromPos toPos ≤ 1 := by
  rw [ne_eq, Position.ext_iff] at hne
  simp only [kingMovement, Bool.and_eq_true, Bool.or_eq_true, decide_eq_true_eq]
  unfold rowDistance colDistance
  omega

theorem knightMovement_iff (piece : Piece) :
    knightMovement board fromPos toPos piece = true ↔
      (rowDistance fromPos toPos = 1 ∧ colDistance fromPos toPos = 2) ∨
        (rowDistance fromPos toPos = 2 ∧ colDistance fromPos toPos = 1) := by
  simp only [knightMovement, Bool.and_eq_true, Bool.or_eq_true, decide_eq_true_eq]
  rfl

theorem pawnMovement_iff (piece : Piece) :
    pawnMovement board fromPos toPos piece = true ↔ PawnMove board fromPos toPos piece := by
  have hfriendly : (!(board.cell toPos).isEmpty && !(board.cell toPos).isFriendly piece.color) =
      true ↔ (board.cell toPos).isEmpty = false ∧ (board.cell toPos).color ≠ piece.color := by
    cases h : (board.cell toPos).isEmpty <;> simp [Piece.isFriendly, h]
  have hforward : forwardRow piece.color = 1 ∨ forwardRow piece.color = -1 := by
    unfold forwardRow
    split
    · exact .inr rfl
    · exact .inl rfl
  simp only [pawnMovement]
  rw [← forwardRow, ← homeRank]
  constructor
  · intro h
    split at h
    · rename_i hstep
      exact .step (by omega) (by omega) h
    · split at h
      · rename_i hsteps
        split at h
        · exact absurd h Bool.false_ne_true
        · rename_i hunmoved
          split at h
          · exact absurd h Bool.false_ne_true
          · rename_i hhome
            rw [Bool.and_eq_true] at h
            rw [Bool.not_eq_true] at hunmoved
            exact .twoSteps (by omega) (by omega) (not_not.1 hhome) hunmoved h.1 h.2
      · split at h
        · rename_i htakes
          obtain ⟨henemy, hcolor⟩ := hfriendly.1 h
          exact .takes (by omega) htakes.2 henemy hcolor
        · exact absurd h Bool.false_ne_true
  · rintro (⟨hstep, hsame, hfree⟩ | ⟨hsteps, hsame, hhome, hunmoved, hpassed, hfree⟩ |
      ⟨hstep, hside, henemy, hcolor⟩)
    · rw [if_pos (by omega)]
      exact hfree
    · rw [if_neg (by omega), if_pos (by omega), if_neg (by simp [hunmoved]),
        if_neg (not_not.2 hhome), hpassed, hfree]
      rfl
    · unfold colDistance at hside
      rw [if_neg (by omega), if_neg (by omega), if_pos (by omega)]
      exact hfriendly.2 ⟨henemy, hcolor⟩

/-- Every movement test decides the moves of its kind of piece. -/
theorem movementFor_iff (hne : fromPos ≠ toPos) (piece : Piece) :
    (∃ movement, movementFor piece.type = some movement ∧
        movement board fromPos toPos piece = true) ↔
      PieceMove board fromPos toPos piece := by
  have htest : ∀ movement : PieceMovement,
      (∃ other, some movement = some other ∧ other board fromPos toPos piece = true) ↔
        movement board fromPos toPos piece = true := by
    intro movement
    constructor
    · rintro ⟨other, heq, h⟩
      exact Option.some.inj heq ▸ h
    · exact fun h ↦ ⟨movement, rfl, h⟩
  unfold PieceMove
  cases piece.type with
  | empty =>
    constructor
    · rintro ⟨movement, heq, -⟩
      exact absurd heq.symm (Option.some_ne_none movement)
    · exact False.elim
  | king => exact (htest kingMovement).trans (kingMovement_iff board hne piece)
  | queen =>
    refine (htest queenMovement).trans ?_
    rw [queenMovement, Bool.or_eq_true, canSlideStraight_iff board hne,
      canSlideDiagonal_iff board hne]
  | rook => exact (htest rookMovement).trans (canSlideStraight_iff board hne)
  | bishop => exact (htest bishopMovement).trans (canSlideDiagonal_iff board hne)
  | knight => exact (htest knightMovement).trans (knightMovement_iff board piece)
  | pawn => exact (htest pawnMovement).trans (pawnMovement_iff board piece)

/-- The program accepts exactly the legal moves. -/
theorem canMove_iff (fromPos toPos : Position) :
    canMove board fromPos toPos = true ↔ LegalMove board fromPos toPos := by
  have hown : ((board.cell toPos).isFriendly (board.cell fromPos).color) = true ↔
      (board.cell toPos).isEmpty = false ∧ (board.cell toPos).color = (board.cell fromPos).color :=
    Piece.isFriendly_iff _ _
  constructor
  · intro h
    unfold canMove at h
    split at h
    · exact absurd h Bool.false_ne_true
    · rename_i hne
      split at h
      · exact absurd h Bool.false_ne_true
      · rename_i hbounds
        simp only [Bool.or_eq_true, Bool.not_eq_true', not_or, Bool.not_eq_false] at hbounds
        simp only at h
        split at h
        · exact absurd h Bool.false_ne_true
        · rename_i hoccupied
          split at h
          · exact absurd h Bool.false_ne_true
          · rename_i movement hmovement
            split at h
            · exact absurd h Bool.false_ne_true
            · rename_i htest
              rw [Bool.not_eq_true', Bool.not_eq_false] at htest
              refine ⟨hne, hbounds.1, hbounds.2, by simpa using hoccupied, ?_,
                (movementFor_iff board hne _).1 ⟨movement, hmovement, htest⟩⟩
              intro hfriendly
              rw [if_pos (by simp [hfriendly.1, hown.2 hfriendly])] at h
              exact Bool.false_ne_true h
  · rintro ⟨hne, hfrom, hto, hoccupied, hfriendly, hmove⟩
    obtain ⟨movement, hmovement, htest⟩ := (movementFor_iff board hne _).2 hmove
    rw [← hown, Bool.not_eq_true] at hfriendly
    simp [canMove, hne, hfrom, hto, hoccupied, hmovement, htest, hfriendly]

/-- A move is accepted when it is legal and its piece is rested. -/
theorem validateMove_iff (fromPos toPos : Position) :
    validateMove board fromPos toPos = true ↔
      LegalMove board fromPos toPos ∧ (board.cell fromPos).moveCooldownRemainingMs ≤ 0 := by
  constructor
  · intro h
    have hvalid := validated_of_validateMove h
    have hcan : canMove board fromPos toPos = true := by
      simpa [validateMove, hvalid.inBounds_from, hvalid.inBounds_to, hvalid.occupied,
        not_lt.2 hvalid.rested] using h
    exact ⟨(canMove_iff board fromPos toPos).1 hcan, hvalid.rested⟩
  · rintro ⟨hlegal, hrested⟩
    have hcan := (canMove_iff board fromPos toPos).2 hlegal
    simpa [validateMove, hlegal.inBounds_from, hlegal.inBounds_to, hlegal.occupied,
      not_lt.2 hrested] using hcan

end Tests

end KongFuChess.Rules
