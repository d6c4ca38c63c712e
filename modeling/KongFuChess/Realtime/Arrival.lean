import KongFuChess.Realtime.Arbiter

/-!
# What one arrival does

`resolveMoveArrival` has five possible outcomes. `outcome` names the one that occurs and `settle`
describes its effect, so that every later argument about arrivals is a case analysis over five
named cases instead of the branches of the program.

An arriving motion is `OnBoard` when its two squares are distinct and inside; the effect of each
outcome on single cells is then explicit.
-/

namespace KongFuChess.Realtime

open Model

inductive Outcome
  | stale
  | blocked
  | jumpCaptured
  | lostTie
  | landed
deriving DecidableEq, Repr

/-- The source square holds a piece of the recorded type and colour. -/
def Motion.Valid (motion : Motion) (board : Board) : Prop :=
  (board.cell motion.source).Is motion.pieceType motion.pieceColor

instance (motion : Motion) (board : Board) : Decidable (motion.Valid board) :=
  inferInstanceAs (Decidable (Piece.Is _ _ _))

/-- The two squares of a move are distinct squares of the board. -/
structure Motion.OnBoard (motion : Motion) (board : Board) : Prop where
  source : board.inBounds motion.source = true
  destination : board.inBounds motion.destination = true
  ne : motion.source ≠ motion.destination

def outcome (activeMotions : List Motion) (tick : Tick) (motion : Motion) : Outcome :=
  let destination := tick.board.cell motion.destination
  if ¬ motion.Valid tick.board then .stale
  else if destination.isFriendly motion.pieceColor then .blocked
  else if !destination.isEmpty && isJumpActiveAt activeMotions motion.destination then
    .jumpCaptured
  else if !destination.isEmpty &&
      squareArrivedThisTick tick.arrivedThisTick motion.destination then .lostTie
  else .landed

/-- The record of a capture by an airborne piece. -/
def jumpCaptureOf (board : Board) (motion : Motion) : JumpCaptureEvent :=
  { timestampMs := motionArrivalMs motion
    jumpSquare := motion.destination
    jumperType := (board.cell motion.destination).type
    jumperColor := (board.cell motion.destination).color
    victimType := motion.pieceType
    victimColor := motion.pieceColor
    victimFrom := motion.source
    victimTo := motion.destination }

/-- The record of a completed move. -/
def completedMoveOf (board : Board) (motion : Motion) : CompletedMoveEvent :=
  let destination := board.cell motion.destination
  { timestampMs := motionArrivalMs motion
    pieceType := motion.pieceType
    pieceColor := motion.pieceColor
    fromPos := motion.source
    toPos := motion.destination
    capturedType := if !destination.isEmpty then destination.type else .empty
    capturedColor := if !destination.isEmpty then destination.color else .white }

/-- The piece that stands on the destination after a landing. -/
def landedPiece (board : Board) (motion : Motion) : Piece :=
  let mover := board.cell motion.source
  if mover.type ≠ .pawn then mover
  else if motion.destination.row = lastRow board mover.color then mover.markMoved.promote .queen
  else mover.markMoved

/-- The board after a landing. -/
def landOn (board : Board) (motion : Motion) : Board :=
  (board.setCell motion.destination (landedPiece board motion)).setCell motion.source Piece.empty

def Tick.settle (tick : Tick) (motion : Motion) : Outcome → Tick
  | .stale => tick
  | .blocked => tick
  | .jumpCaptured =>
    { tick with
      board := tick.board.removePieceAt motion.source
      resolutions := tick.resolutions ++ [.jumpCapture (jumpCaptureOf tick.board motion)] }
  | .lostTie => { tick with board := tick.board.removePieceAt motion.source }
  | .landed =>
    { board := landOn tick.board motion
      arrivedThisTick := tick.arrivedThisTick ++ [motion.destination]
      resolutions := tick.resolutions ++ [.completedMove (completedMoveOf tick.board motion)] }

@[simp]
theorem rows_landOn (board : Board) (motion : Motion) :
    (landOn board motion).rows = board.rows := by
  simp [landOn]

@[simp]
theorem lastRow_setCell (board : Board) (pos : Position) (piece : Piece) (color : Color) :
    lastRow (board.setCell pos piece) color = lastRow board color := by
  simp [lastRow]

@[simp]
theorem inBounds_landOn (board : Board) (motion : Motion) (pos : Position) :
    (landOn board motion).inBounds pos = board.inBounds pos := by
  simp [landOn]

@[simp]
theorem inBounds_removePieceAt (board : Board) (square pos : Position) :
    (board.removePieceAt square).inBounds pos = board.inBounds pos := by
  simp [Board.removePieceAt]

@[simp]
theorem rows_removePieceAt (board : Board) (square : Position) :
    (board.removePieceAt square).rows = board.rows := by
  simp [Board.removePieceAt]

/-- The record of a move depends on what its destination shows. -/
theorem completedMoveOf_congr {left right : Board} {motion : Motion}
    (hkind : (left.cell motion.destination).kind = (right.cell motion.destination).kind) :
    completedMoveOf left motion = completedMoveOf right motion := by
  rw [completedMoveOf, completedMoveOf, Piece.isEmpty_congr hkind, Piece.type_congr hkind,
    Piece.color_congr hkind]

/-- The cells after a landing. -/
theorem cell_landOn {board : Board} {motion : Motion} (h : motion.OnBoard board) (pos : Position) :
    (landOn board motion).cell pos =
      if pos = motion.destination then landedPiece board motion
      else if pos = motion.source then Piece.empty
      else board.cell pos := by
  unfold landOn
  by_cases hsource : pos = motion.source
  · subst hsource
    rw [if_neg h.ne, if_pos rfl, Board.cell_setCell_self]
    simpa using h.source
  · rw [Board.cell_setCell_ne _ _ hsource, if_neg hsource, Board.cell_setCell]
    by_cases hdestination : pos = motion.destination
    · rw [if_pos hdestination, if_pos ⟨hdestination.symm, h.destination⟩]
    · rw [if_neg hdestination, if_neg fun heq ↦ hdestination heq.1.symm]

/-- The cells after a removal. -/
theorem cell_removePieceAt (board : Board) (square pos : Position) :
    (board.removePieceAt square).cell pos =
      if pos = square then Piece.empty else board.cell pos := by
  unfold Board.removePieceAt
  by_cases hpos : pos = square
  · subst hpos
    rw [if_pos rfl, Board.cell_setCell]
    split
    · rfl
    · rename_i hout
      exact Board.cell_of_not_inBounds board (by simpa using hout)
  · rw [if_neg hpos, Board.cell_setCell_ne _ _ hpos]

/-- Moving a piece, marking it and promoting it writes the landed piece. -/
theorem landOn_eq {board : Board} {motion : Motion} (h : motion.OnBoard board) :
    (let moved := board.movePiece motion.source motion.destination
     let arrived := moved.cell motion.destination
     let marked :=
       if arrived.type = .pawn then moved.setCell motion.destination arrived.markMoved else moved
     promotePawnIfEligible marked motion.destination) = landOn board motion := by
  have harrived : (board.movePiece motion.source motion.destination).cell motion.destination =
      board.cell motion.source := by
    rw [Board.movePiece, Board.cell_setCell_ne _ _ h.ne.symm,
      Board.cell_setCell_self _ _ h.destination]
  have hrewrite : ∀ piece, (board.movePiece motion.source motion.destination).setCell
      motion.destination piece =
        (board.setCell motion.destination piece).setCell motion.source Piece.empty := by
    intro piece
    rw [Board.movePiece, Board.setCell_comm _ h.ne, Board.setCell_setCell_self]
  simp only [harrived]
  by_cases hpawn : (board.cell motion.source).type = .pawn
  · rw [if_pos hpawn, hrewrite]
    simp only [promotePawnIfEligible]
    rw [Board.cell_setCell_ne _ _ h.ne.symm, Board.cell_setCell_self _ _ h.destination]
    simp only [Piece.markMoved, hpawn, ne_eq, not_true_eq_false, if_false, lastRow_setCell]
    by_cases hrow : motion.destination.row = lastRow board (board.cell motion.source).color
    · rw [if_pos hrow, Board.setCell_comm _ h.ne, Board.setCell_setCell_self]
      simp [landOn, landedPiece, hpawn, hrow, Piece.markMoved]
    · rw [if_neg hrow]
      simp [landOn, landedPiece, hpawn, hrow, Piece.markMoved]
  · rw [if_neg hpawn]
    simp only [promotePawnIfEligible, harrived, if_pos hpawn]
    simp [landOn, landedPiece, hpawn, Board.movePiece]

theorem Motion.Valid.not_isEmpty {motion : Motion} {board : Board} (h : motion.Valid board) :
    (board.cell motion.source).isEmpty = false := h.1

theorem Motion.Valid.type {motion : Motion} {board : Board} (h : motion.Valid board) :
    (board.cell motion.source).type = motion.pieceType := h.2.1

theorem Motion.Valid.color {motion : Motion} {board : Board} (h : motion.Valid board) :
    (board.cell motion.source).color = motion.pieceColor := h.2.2

/-- The program's arrival is the effect of its outcome. -/
theorem resolveMoveArrival_eq_settle (activeMotions : List Motion) (tick : Tick) {motion : Motion}
    (h : motion.OnBoard tick.board) :
    resolveMoveArrival activeMotions tick motion =
      tick.settle motion (outcome activeMotions tick motion) := by
  unfold resolveMoveArrival outcome
  simp only [h.source, Bool.not_true, Bool.false_eq_true, if_false]
  by_cases hvalid : motion.Valid tick.board
  · have hmover : ¬ ((tick.board.cell motion.source).isEmpty ||
        decide ((tick.board.cell motion.source).type ≠ motion.pieceType) ||
        decide ((tick.board.cell motion.source).color ≠ motion.pieceColor)) = true := by
      simp [hvalid.not_isEmpty, hvalid.type, hvalid.color]
    rw [if_neg hmover, if_neg (not_not.2 hvalid), hvalid.color, landOn_eq h]
    by_cases hfriendly : (tick.board.cell motion.destination).isFriendly motion.pieceColor = true
    · have hfull := ((Piece.isFriendly_iff _ _).1 hfriendly).1
      simp [hfriendly, hfull, Tick.settle]
    · simp only [hfriendly, Bool.and_false, Bool.false_eq_true, if_false]
      split
      · rfl
      · split <;> rfl
  · have hmover : ((tick.board.cell motion.source).isEmpty ||
        decide ((tick.board.cell motion.source).type ≠ motion.pieceType) ||
        decide ((tick.board.cell motion.source).color ≠ motion.pieceColor)) = true := by
      by_contra hnot
      simp only [Bool.or_eq_true, decide_eq_true_eq, not_or, not_not, Bool.not_eq_true] at hnot
      exact hvalid ⟨hnot.1.1, hnot.1.2, hnot.2⟩
    rw [if_pos hmover, if_pos hvalid]
    rfl

/-- An occupied square of the opponent of a colour. -/
def Enemy (piece : Piece) (color : Color) : Prop :=
  piece.isEmpty = false ∧ piece.color = color.opposite

instance (piece : Piece) (color : Color) : Decidable (Enemy piece color) :=
  inferInstanceAs (Decidable (_ ∧ _))

theorem Enemy.not_isFriendly {piece : Piece} {color : Color} (h : Enemy piece color) :
    piece.isFriendly color = false := by
  rw [← Bool.not_eq_true, Piece.isFriendly_iff, h.2]
  exact fun hfriendly ↦ Color.opposite_ne _ hfriendly.2

theorem squareArrivedThisTick_iff (arrivedThisTick : List Position) (pos : Position) :
    squareArrivedThisTick arrivedThisTick pos = true ↔ pos ∈ arrivedThisTick := by
  simp [squareArrivedThisTick]

/-- What each outcome says about the tick in which it occurs. -/
def Occurs (activeMotions : List Motion) (tick : Tick) (motion : Motion) : Outcome → Prop
  | .stale => ¬ motion.Valid tick.board
  | .blocked =>
    motion.Valid tick.board ∧
      (tick.board.cell motion.destination).isFriendly motion.pieceColor = true
  | .jumpCaptured =>
    motion.Valid tick.board ∧ Enemy (tick.board.cell motion.destination) motion.pieceColor ∧
      isJumpActiveAt activeMotions motion.destination = true
  | .lostTie =>
    motion.Valid tick.board ∧ Enemy (tick.board.cell motion.destination) motion.pieceColor ∧
      isJumpActiveAt activeMotions motion.destination = false ∧
      motion.destination ∈ tick.arrivedThisTick
  | .landed =>
    motion.Valid tick.board ∧
      ((tick.board.cell motion.destination).isEmpty = true ∨
        Enemy (tick.board.cell motion.destination) motion.pieceColor ∧
          isJumpActiveAt activeMotions motion.destination = false ∧
          motion.destination ∉ tick.arrivedThisTick)

theorem outcome_spec (activeMotions : List Motion) (tick : Tick) (motion : Motion) :
    Occurs activeMotions tick motion (outcome activeMotions tick motion) := by
  by_cases hvalid : motion.Valid tick.board
  swap
  · simp [outcome, Occurs, hvalid]
  by_cases hfriendly : (tick.board.cell motion.destination).isFriendly motion.pieceColor = true
  · simp [outcome, Occurs, hvalid, hfriendly]
  by_cases hempty : (tick.board.cell motion.destination).isEmpty = true
  · simp [outcome, Occurs, hvalid, hfriendly, hempty]
  have henemy : Enemy (tick.board.cell motion.destination) motion.pieceColor :=
    ⟨by simpa using hempty, Piece.color_of_not_isFriendly (by simpa using hempty)
      (by simpa using hfriendly)⟩
  have harrived := squareArrivedThisTick_iff tick.arrivedThisTick motion.destination
  cases hjump : isJumpActiveAt activeMotions motion.destination with
  | true => simp [outcome, Occurs, hvalid, hfriendly, hempty, henemy, hjump]
  | false =>
    by_cases hmem : motion.destination ∈ tick.arrivedThisTick <;>
      simp [outcome, Occurs, hvalid, hfriendly, hempty, henemy, hjump, harrived, hmem]

@[simp]
theorem inBounds_settle (tick : Tick) (motion : Motion) (result : Outcome) (pos : Position) :
    (tick.settle motion result).board.inBounds pos = tick.board.inBounds pos := by
  cases result <;> simp [Tick.settle]

@[simp]
theorem rows_settle (tick : Tick) (motion : Motion) (result : Outcome) :
    (tick.settle motion result).board.rows = tick.board.rows := by
  cases result <;> simp [Tick.settle]

theorem Motion.OnBoard.congr {motion : Motion} {left right : Board} (h : motion.OnBoard left)
    (hbounds : ∀ pos, right.inBounds pos = left.inBounds pos) : motion.OnBoard right :=
  ⟨(hbounds _).trans h.source, (hbounds _).trans h.destination, h.ne⟩

/-- The cells after one arrival: only the two squares of a motion that is resolved change. -/
theorem cell_settle {tick : Tick} {motion : Motion} (h : motion.OnBoard tick.board)
    (result : Outcome) (pos : Position) :
    (tick.settle motion result).board.cell pos =
      match result with
      | .stale => tick.board.cell pos
      | .blocked => tick.board.cell pos
      | .jumpCaptured => if pos = motion.source then Piece.empty else tick.board.cell pos
      | .lostTie => if pos = motion.source then Piece.empty else tick.board.cell pos
      | .landed =>
        if pos = motion.destination then landedPiece tick.board motion
        else if pos = motion.source then Piece.empty
        else tick.board.cell pos := by
  cases result with
  | stale => rfl
  | blocked => rfl
  | jumpCaptured => exact cell_removePieceAt _ _ _
  | lostTie => exact cell_removePieceAt _ _ _
  | landed => exact cell_landOn h pos

/-- An arrival leaves every square alone that it neither takes its piece from nor lands on. -/
theorem cell_settle_of_ne {tick : Tick} {motion : Motion} (h : motion.OnBoard tick.board)
    {result : Outcome} {pos : Position}
    (hsource : motion.source = pos → result = .stale ∨ result = .blocked)
    (hdestination : result = .landed → pos ≠ motion.destination) :
    (tick.settle motion result).board.cell pos = tick.board.cell pos := by
  rw [cell_settle h]
  cases result with
  | stale => rfl
  | blocked => rfl
  | jumpCaptured => exact if_neg fun heq ↦ by simpa using hsource heq.symm
  | lostTie => exact if_neg fun heq ↦ by simpa using hsource heq.symm
  | landed =>
    simp only [if_neg (hdestination rfl)]
    exact if_neg fun heq ↦ by simpa using hsource heq.symm

/-- A resolved move leaves its source empty. -/
theorem cell_settle_source {tick : Tick} {motion : Motion} (h : motion.OnBoard tick.board)
    {result : Outcome} (hstale : result ≠ .stale) (hblocked : result ≠ .blocked) :
    (tick.settle motion result).board.cell motion.source = Piece.empty := by
  rw [cell_settle h]
  cases result with
  | stale => exact absurd rfl hstale
  | blocked => exact absurd rfl hblocked
  | jumpCaptured | lostTie => exact if_pos rfl
  | landed => simp only [if_neg h.ne, if_true]

/-- A square that is not empty after a turn has not been left in it. -/
theorem kept_of_full {tick : Tick} {motion : Motion} (h : motion.OnBoard tick.board)
    {result : Outcome} {pos : Position}
    (hfull : ((tick.settle motion result).board.cell pos).isEmpty = false)
    (hsource : motion.source = pos) : result = .stale ∨ result = .blocked := by
  subst hsource
  by_contra hleft
  rw [not_or] at hleft
  rw [cell_settle_source h hleft.1 hleft.2] at hfull
  exact Bool.false_ne_true hfull.symm

/-- A square that nothing lands on keeps its piece, or its own motion takes it away. -/
theorem cell_settle_or_empty {tick : Tick} {motion : Motion} (h : motion.OnBoard tick.board)
    {result : Outcome} {pos : Position}
    (hdestination : ¬ (result = .landed ∧ pos = motion.destination)) :
    (tick.settle motion result).board.cell pos = tick.board.cell pos ∨
      (tick.settle motion result).board.cell pos = Piece.empty := by
  by_cases hsource : motion.source = pos → result = .stale ∨ result = .blocked
  · left
    exact cell_settle_of_ne h hsource fun hresult heq ↦ hdestination ⟨hresult, heq⟩
  · right
    rw [Classical.not_imp, not_or] at hsource
    obtain ⟨rfl, hstale, hblocked⟩ := hsource
    exact cell_settle_source h hstale hblocked

/-- A landing leaves its piece, promoted where it is due, on the destination. -/
theorem cell_settle_landed {tick : Tick} {motion : Motion} (h : motion.OnBoard tick.board) :
    (tick.settle motion .landed).board.cell motion.destination =
      landedPiece tick.board motion := by
  rw [cell_settle h]
  exact if_pos rfl

/-- The colour of a landed piece is that of the mover. -/
@[simp]
theorem landedPiece_color (board : Board) (motion : Motion) :
    (landedPiece board motion).color = (board.cell motion.source).color := by
  simp only [landedPiece]
  split
  · rfl
  · split <;> rfl

theorem landedPiece_type (board : Board) (motion : Motion) :
    (landedPiece board motion).type =
      if (board.cell motion.source).type = .pawn ∧
          motion.destination.row = lastRow board (board.cell motion.source).color then .queen
      else (board.cell motion.source).type := by
  simp only [landedPiece]
  by_cases hpawn : (board.cell motion.source).type = .pawn
  · by_cases hrow : motion.destination.row = lastRow board (board.cell motion.source).color
    · simp [hpawn, hrow, Piece.markMoved, Piece.promote]
    · simp [hpawn, hrow, Piece.markMoved]
  · simp [hpawn]

theorem landedPiece_isEmpty {board : Board} {motion : Motion}
    (h : (board.cell motion.source).isEmpty = false) :
    (landedPiece board motion).isEmpty = false := by
  rw [Piece.isEmpty_eq_false_iff] at h ⊢
  rw [landedPiece_type]
  split
  · decide
  · exact h

section Arrivals

variable (activeMotions : List Motion)

@[simp]
theorem inBounds_resolveMoveArrival {tick : Tick} {motion : Motion}
    (h : motion.OnBoard tick.board) (pos : Position) :
    (resolveMoveArrival activeMotions tick motion).board.inBounds pos =
      tick.board.inBounds pos := by
  rw [resolveMoveArrival_eq_settle _ _ h, inBounds_settle]

/-- A property that every arrival of the list keeps holds after all of them. The property may
mention the arrivals still to come. -/
theorem arrivals_induction {P : List Motion → Tick → Prop}
    (hstep : ∀ tick motion rest, motion.OnBoard tick.board →
      P (motion :: rest) tick → P rest (tick.settle motion (outcome activeMotions tick motion)))
    {arrivals : List Motion} {tick : Tick} (hon : ∀ motion ∈ arrivals, motion.OnBoard tick.board)
    (h : P arrivals tick) : P [] (arrivals.foldl (resolveMoveArrival activeMotions) tick) := by
  induction arrivals generalizing tick with
  | nil => exact h
  | cons motion rest ih =>
    have hmotion := hon motion (List.mem_cons_self ..)
    rw [List.foldl_cons, resolveMoveArrival_eq_settle _ _ hmotion]
    apply ih
    · intro other hother
      exact (hon other (List.mem_cons_of_mem _ hother)).congr fun pos ↦ inBounds_settle ..
    · exact hstep tick motion rest hmotion h

/-- Arrivals do not change the size of the board. -/
theorem inBounds_arrivals {arrivals : List Motion} {tick : Tick}
    (hon : ∀ motion ∈ arrivals, motion.OnBoard tick.board) (pos : Position) :
    (arrivals.foldl (resolveMoveArrival activeMotions) tick).board.inBounds pos =
      tick.board.inBounds pos :=
  arrivals_induction activeMotions
    (P := fun _ later ↦ later.board.inBounds pos = tick.board.inBounds pos)
    (fun later motion _ _ h ↦ (inBounds_settle later motion _ pos).trans h) hon rfl

end Arrivals

end KongFuChess.Realtime
