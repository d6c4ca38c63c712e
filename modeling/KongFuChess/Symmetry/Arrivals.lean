import KongFuChess.Realtime.Arrival
import KongFuChess.Symmetry.Rules

/-!
# Mirroring motions and their arrivals

The arrivals of mirrored moves on a mirrored board are the mirror images of the arrivals. The
destination of a jump is a sentinel outside the board and stays as it is.
-/

namespace KongFuChess.Realtime

open Model Rules

def Motion.mirror (rows : ℕ) (motion : Motion) : Motion :=
  { motion with
    source := motion.source.mirror rows
    destination :=
      if motion.type = .jump then motion.destination else motion.destination.mirror rows
    pieceColor := motion.pieceColor.opposite }

def CompletedMoveEvent.mirror (rows : ℕ) (event : CompletedMoveEvent) : CompletedMoveEvent :=
  { event with
    pieceColor := event.pieceColor.opposite
    fromPos := event.fromPos.mirror rows
    toPos := event.toPos.mirror rows
    capturedColor :=
      if event.capturedType = .empty then event.capturedColor else event.capturedColor.opposite }

def JumpCaptureEvent.mirror (rows : ℕ) (event : JumpCaptureEvent) : JumpCaptureEvent :=
  { event with
    jumpSquare := event.jumpSquare.mirror rows
    jumperColor := event.jumperColor.opposite
    victimColor := event.victimColor.opposite
    victimFrom := event.victimFrom.mirror rows
    victimTo := event.victimTo.mirror rows }

def MoveResolution.mirror (rows : ℕ) : MoveResolution → MoveResolution
  | .completedMove event => .completedMove (event.mirror rows)
  | .jumpCapture event => .jumpCapture (event.mirror rows)

def Tick.mirror (rows : ℕ) (tick : Tick) : Tick where
  board := tick.board.mirror
  arrivedThisTick := tick.arrivedThisTick.map (Position.mirror rows)
  resolutions := tick.resolutions.map (MoveResolution.mirror rows)

@[simp]
theorem isExpired_mirror (rows : ℕ) (motion : Motion) (currentTimeMs : ℤ) :
    (motion.mirror rows).isExpired currentTimeMs = motion.isExpired currentTimeMs := rfl

@[simp]
theorem motionLess_mirror (rows : ℕ) (a b : Motion) :
    motionLess (a.mirror rows) (b.mirror rows) = motionLess a b := rfl

@[simp]
theorem source_mirror (rows : ℕ) (motion : Motion) :
    (motion.mirror rows).source = motion.source.mirror rows := rfl

@[simp]
theorem pieceColor_mirror (rows : ℕ) (motion : Motion) :
    (motion.mirror rows).pieceColor = motion.pieceColor.opposite := rfl

theorem destination_mirror (rows : ℕ) {motion : Motion} (h : motion.type = .move) :
    (motion.mirror rows).destination = motion.destination.mirror rows := by
  simp [Motion.mirror, h]

@[simp]
theorem isJumpActiveAt_mirror (rows : ℕ) (motions : List Motion) (pos : Position) :
    isJumpActiveAt (motions.map (Motion.mirror rows)) (pos.mirror rows) =
      isJumpActiveAt motions pos := by
  have hsquare : ∀ motion : Motion, ((motion.mirror rows).source = pos.mirror rows) =
      (motion.source = pos) := fun _ ↦ propext (Position.mirror_inj rows)
  rw [Bool.eq_iff_iff]
  simp only [isJumpActiveAt, List.any_map, List.any_eq_true, Function.comp_def, Bool.and_eq_true,
    decide_eq_true_eq, hsquare]
  rfl

theorem completingMoves_mirror (rows : ℕ) (motions : List Motion) (currentTimeMs : ℤ) :
    completingMoves (motions.map (Motion.mirror rows)) currentTimeMs =
      (completingMoves motions currentTimeMs).map (Motion.mirror rows) := by
  rw [completingMoves, completingMoves, List.filter_map]
  rfl

theorem removeExpiredMotions_mirror (rows : ℕ) (motions : List Motion) (type : MotionType)
    (currentTimeMs : ℤ) :
    removeExpiredMotions (motions.map (Motion.mirror rows)) type currentTimeMs =
      (removeExpiredMotions motions type currentTimeMs).map (Motion.mirror rows) := by
  rw [removeExpiredMotions, removeExpiredMotions, List.filter_map]
  rfl

/-- Sorting by starting order does not look at squares or colours. -/
theorem insertionSort_mirror (rows : ℕ) (motions : List Motion) :
    (motions.map (Motion.mirror rows)).insertionSort (fun a b ↦ motionLess b a = false) =
      (motions.insertionSort fun a b ↦ motionLess b a = false).map (Motion.mirror rows) :=
  (List.map_insertionSort (r := fun a b ↦ motionLess b a = false)
    (s := fun a b ↦ motionLess b a = false) (Motion.mirror rows) motions
    fun _ _ _ _ ↦ Iff.rfl).symm

theorem mirror_decreaseAllCooldowns (board : Board) (ms : ℤ) :
    (decreaseAllCooldowns board ms).mirror = decreaseAllCooldowns board.mirror ms := by
  apply Grid.ext_get? (by simp [decreaseAllCooldowns, Board.mirror])
  intro row col
  simp [decreaseAllCooldowns, Board.mirror, Function.comp_def]

section Arrival

variable {rows : ℕ} {board : Board} {motion : Motion}

theorem onBoard_mirror (hrows : board.rows = rows) (htype : motion.type = .move)
    (h : motion.OnBoard board) : (motion.mirror rows).OnBoard board.mirror := by
  subst hrows
  refine ⟨?_, ?_, ?_⟩
  · simpa [Motion.mirror, Board.inBounds_mirror] using h.source
  · simpa [destination_mirror _ htype, Board.inBounds_mirror] using h.destination
  · rw [destination_mirror _ htype]
    exact fun heq ↦ h.ne ((Position.mirror_inj _).1 heq)

theorem valid_mirror (hrows : board.rows = rows) :
    (motion.mirror rows).Valid board.mirror ↔ motion.Valid board := by
  rw [Motion.Valid, source_mirror, Board.cell_mirror_mirror hrows]
  exact Piece.is_mirror

/-- The promotion rows of the two sides are mirror images of each other. -/
theorem lastRow_mirror (color : Color) :
    lastRow board.mirror color.opposite = board.rows - 1 - lastRow board color := by
  cases color <;> simp [lastRow, Color.opposite]

theorem landedPiece_mirror (hrows : board.rows = rows) (htype : motion.type = .move)
    (hvalid : motion.Valid board) :
    landedPiece board.mirror (motion.mirror rows) = (landedPiece board motion).mirror := by
  subst hrows
  have hrow : (motion.destination.mirror board.rows).row =
      board.rows - 1 - lastRow board (board.cell motion.source).color ↔
        motion.destination.row = lastRow board (board.cell motion.source).color := by
    simp only [Position.mirror]
    omega
  simp only [landedPiece, source_mirror, Board.cell_mirror_mirror rfl, Piece.type_mirror,
    destination_mirror _ htype, Piece.color_mirror hvalid.not_isEmpty, lastRow_mirror, hrow]
  split
  · rfl
  · split
    · have hmarked : (board.cell motion.source).markMoved.isEmpty = false := hvalid.not_isEmpty
      rw [Piece.mirror_promote hmarked (by decide), Piece.mirror_markMoved]
    · rw [Piece.mirror_markMoved]

theorem outcome_mirror (activeMotions : List Motion) {tick : Tick} (hrows : tick.board.rows = rows)
    (htype : motion.type = .move) :
    outcome (activeMotions.map (Motion.mirror rows)) (tick.mirror rows) (motion.mirror rows) =
      outcome activeMotions tick motion := by
  have hvalid : (motion.mirror rows).Valid (tick.mirror rows).board ↔ motion.Valid tick.board :=
    valid_mirror hrows
  have hcell : (tick.mirror rows).board.cell (motion.destination.mirror rows) =
      (tick.board.cell motion.destination).mirror := Board.cell_mirror_mirror hrows _
  have harrived : squareArrivedThisTick (tick.mirror rows).arrivedThisTick
      (motion.destination.mirror rows) =
        squareArrivedThisTick tick.arrivedThisTick motion.destination := by
    simp only [squareArrivedThisTick, Tick.mirror, List.any_map, Function.comp_def,
      Position.mirror_inj]
  simp only [outcome, hvalid, destination_mirror _ htype, hcell, pieceColor_mirror,
    Piece.isFriendly_mirror, Piece.isEmpty_mirror, isJumpActiveAt_mirror, harrived]

theorem mirror_landOn (hrows : board.rows = rows) (htype : motion.type = .move)
    (hvalid : motion.Valid board) :
    (landOn board motion).mirror = landOn board.mirror (motion.mirror rows) := by
  rw [landOn, landOn, Board.mirror_setCell, Board.mirror_setCell,
    landedPiece_mirror hrows htype hvalid, destination_mirror _ htype]
  simp [hrows, Motion.mirror]

/-- The effect of an arrival on the mirrored board is the mirror image of its effect. -/
theorem settle_mirror {activeMotions : List Motion} {tick : Tick} (hrows : tick.board.rows = rows)
    (htype : motion.type = .move) :
    (tick.mirror rows).settle (motion.mirror rows) (outcome activeMotions tick motion) =
      (tick.settle motion (outcome activeMotions tick motion)).mirror rows := by
  have hspec := outcome_spec activeMotions tick motion
  have hremove : tick.board.mirror.removePieceAt (motion.mirror rows).source =
      (tick.board.removePieceAt motion.source).mirror := by
    rw [Board.removePieceAt, Board.removePieceAt, Board.mirror_setCell, hrows]
    rfl
  cases hresult : outcome activeMotions tick motion with
  | stale => rfl
  | blocked => rfl
  | jumpCaptured =>
    rw [hresult] at hspec
    have hevent : jumpCaptureOf tick.board.mirror (motion.mirror rows) =
        (jumpCaptureOf tick.board motion).mirror rows := by
      simp only [jumpCaptureOf, JumpCaptureEvent.mirror, destination_mirror _ htype,
        Board.cell_mirror_mirror hrows, Piece.type_mirror, Piece.color_mirror hspec.2.1.1]
      rfl
    simp only [Tick.settle, Tick.mirror, hremove, hevent, List.map_append, List.map_cons,
      List.map_nil, MoveResolution.mirror]
  | lostTie => simp only [Tick.settle, Tick.mirror, hremove]
  | landed =>
    rw [hresult] at hspec
    have hevent : completedMoveOf tick.board.mirror (motion.mirror rows) =
        (completedMoveOf tick.board motion).mirror rows := by
      simp only [completedMoveOf, CompletedMoveEvent.mirror, destination_mirror _ htype,
        Board.cell_mirror_mirror hrows, Piece.type_mirror, Piece.isEmpty_mirror]
      by_cases hempty : (tick.board.cell motion.destination).isEmpty = true
      · simp [hempty, Motion.mirror, motionArrivalMs]
      · have hfull : (tick.board.cell motion.destination).isEmpty = false := by simpa using hempty
        have hkind := (Piece.isEmpty_eq_false_iff _).1 hfull
        simp [hfull, hkind, Piece.color_mirror hfull, Motion.mirror, motionArrivalMs]
    simp only [Tick.settle, Tick.mirror, mirror_landOn hrows htype hspec.1, hevent, List.map_append,
      List.map_cons, List.map_nil, MoveResolution.mirror, destination_mirror _ htype]

end Arrival

theorem resolveMoveArrival_mirror {rows : ℕ} (activeMotions : List Motion) {tick : Tick}
    {motion : Motion} (hrows : tick.board.rows = rows) (htype : motion.type = .move)
    (hon : motion.OnBoard tick.board) :
    resolveMoveArrival (activeMotions.map (Motion.mirror rows)) (tick.mirror rows)
        (motion.mirror rows) =
      (resolveMoveArrival activeMotions tick motion).mirror rows := by
  have hmirrored : (motion.mirror rows).OnBoard (tick.mirror rows).board :=
    onBoard_mirror hrows htype hon
  rw [resolveMoveArrival_eq_settle _ _ hmirrored, resolveMoveArrival_eq_settle _ _ hon,
    outcome_mirror _ hrows htype, settle_mirror hrows htype]

/-- The arrivals of a whole call, mirrored. -/
theorem foldl_resolveMoveArrival_mirror {rows : ℕ} (activeMotions : List Motion)
    {arrivals : List Motion} {tick : Tick} (hrows : tick.board.rows = rows)
    (harrivals : ∀ motion ∈ arrivals, motion.type = .move ∧ motion.OnBoard tick.board) :
    (arrivals.map (Motion.mirror rows)).foldl
        (resolveMoveArrival (activeMotions.map (Motion.mirror rows))) (tick.mirror rows) =
      (arrivals.foldl (resolveMoveArrival activeMotions) tick).mirror rows := by
  induction arrivals generalizing tick with
  | nil => rfl
  | cons motion rest ih =>
    obtain ⟨htype, hon⟩ := harrivals motion (List.mem_cons_self ..)
    rw [List.map_cons, List.foldl_cons, List.foldl_cons,
      resolveMoveArrival_mirror activeMotions hrows htype hon]
    apply ih
    · rw [resolveMoveArrival_eq_settle _ _ hon, rows_settle, hrows]
    · intro other hother
      obtain ⟨htype', hon'⟩ := harrivals other (List.mem_cons_of_mem _ hother)
      exact ⟨htype', hon'.congr fun pos ↦ inBounds_resolveMoveArrival activeMotions hon pos⟩

/-- A jump that ends on the mirrored board ends as on the board. -/
theorem landJump_mirror {rows : ℕ} (currentTimeMs : ℤ) {board : Board} (hrows : board.rows = rows)
    (motion : Motion) :
    landJump currentTimeMs board.mirror (motion.mirror rows) =
      (landJump currentTimeMs board motion).mirror := by
  subst hrows
  have hbounds : board.mirror.inBounds (motion.mirror board.rows).source =
      board.inBounds motion.source := by
    simp [Motion.mirror, Board.inBounds_mirror]
  have htype : (motion.mirror board.rows).type = motion.type := rfl
  have hset : ∀ piece : Piece, board.mirror.setCell (motion.mirror board.rows).source piece.mirror =
      (board.setCell motion.source piece).mirror :=
    fun piece ↦ (Board.mirror_setCell board motion.source piece).symm
  have hcell : board.mirror.cell (motion.mirror board.rows).source =
      (board.cell motion.source).mirror := Board.cell_mirror_mirror rfl _
  simp only [landJump, hbounds, htype, isExpired_mirror, hcell, Piece.isEmpty_mirror,
    ← Piece.mirror_setJumpCooldown, hset]
  split
  · rfl
  · split
    · rfl
    · split <;> rfl

theorem foldl_landJump_mirror {rows : ℕ} (currentTimeMs : ℤ) (motions : List Motion) {board : Board}
    (hrows : board.rows = rows) :
    (motions.map (Motion.mirror rows)).foldl (landJump currentTimeMs) board.mirror =
      (motions.foldl (landJump currentTimeMs) board).mirror := by
  induction motions generalizing board with
  | nil => rfl
  | cons motion rest ih =>
    rw [List.map_cons, List.foldl_cons, List.foldl_cons, landJump_mirror currentTimeMs hrows]
    apply ih
    simp only [landJump]
    split
    · exact hrows
    · split
      · exact hrows
      · split
        · simpa using hrows
        · exact hrows

end KongFuChess.Realtime
