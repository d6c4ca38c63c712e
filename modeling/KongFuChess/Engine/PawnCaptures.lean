import KongFuChess.Engine.Turns
import KongFuChess.Rules.Chess

/-!
# What a pawn captures

A pawn's move is compared with the board once, when it is accepted: it goes straight ahead to an
empty square or diagonally to an enemy. The arrival does not look at the shape of the move any more.
It captures what stands on the destination by then, so a pawn captures straight ahead where an enemy
has arrived in the meantime, and arrives diagonally without a capture where the enemy has left.
-/

namespace KongFuChess.Engine

open Model Realtime Rules Events

/-- The move goes diagonally onto an enemy or straight to an empty square. -/
structure AimsAsPawn (board : Board) (motion : Motion) : Prop where
  occupied_iff : (board.cell motion.destination).isEmpty = false ↔
    motion.source.col ≠ motion.destination.col
  enemy : (board.cell motion.destination).isEmpty = false →
    Enemy (board.cell motion.destination) motion.pieceColor

theorem AimsAsPawn.congr {left right : Board} {motion : Motion} (h : AimsAsPawn left motion)
    (hsame : SameKinds right left) : AimsAsPawn right motion := by
  constructor
  · rw [hsame.isEmpty]
    exact h.occupied_iff
  · unfold Enemy
    rw [hsame.isEmpty, hsame.color]
    exact h.enemy

namespace GameEngine

theorem aims_newMove {engine : GameEngine} {fromPos toPos : Position}
    (h : engine.MoveAccepted fromPos toPos)
    (hpawn : (engine.newMove fromPos toPos).pieceType = .pawn) :
    AimsAsPawn engine.board (engine.newMove fromPos toPos) := by
  obtain ⟨hlegal, -⟩ := (validateMove_iff engine.board fromPos toPos).1 h.valid
  have hmove := hlegal.pieceMove
  have hpawn' : (engine.board.cell fromPos).type = .pawn := hpawn
  rw [PieceMove, hpawn'] at hmove
  rcases hmove with ⟨-, hcol, hfree⟩ | ⟨-, hcol, -, -, -, hfree⟩ | ⟨-, hcol, henemy, hcolor⟩
  · have hoccupied : ¬ (engine.board.cell toPos).isEmpty = false := by simp [hfree]
    exact ⟨iff_of_false hoccupied (not_not.2 hcol.symm), fun hfull ↦ absurd hfull hoccupied⟩
  · have hoccupied : ¬ (engine.board.cell toPos).isEmpty = false := by simp [hfree]
    exact ⟨iff_of_false hoccupied (not_not.2 hcol.symm), fun hfull ↦ absurd hfull hoccupied⟩
  · have hside : fromPos.col ≠ toPos.col := by
      unfold colDistance at hcol
      omega
    exact ⟨iff_of_true henemy hside, fun _ ↦ ⟨henemy, Color.eq_opposite_of_ne hcolor⟩⟩

theorem aims_requestMove {engine : GameEngine} {fromPos toPos : Position} {motion : Motion}
    (hfresh : motion ∉ engine.activeMotions)
    (hstarted : motion ∈ (engine.requestMove fromPos toPos).2.activeMotions)
    (hpawn : motion.pieceType = .pawn) : AimsAsPawn engine.board motion := by
  rcases engine.requestMove_cases fromPos toPos with heq | ⟨haccepted, heq⟩
  · rw [heq] at hstarted
    exact absurd hstarted hfresh
  · rw [heq, activeMotions_start, List.mem_append, List.mem_singleton] at hstarted
    obtain rfl := hstarted.resolve_left hfresh
    exact aims_newMove haccepted hpawn

/-- Every new move of a pawn aims at what its destination shows when the step is done, as the board
does not change its kinds after a move has been accepted. -/
theorem aims_of_started {engine : GameEngine} {op : Op} {motion : Motion}
    (hfresh : motion ∉ engine.activeMotions) (hstarted : motion ∈ (engine.step op).activeMotions)
    (htype : motion.type = .move) (hpawn : motion.pieceType = .pawn) :
    AimsAsPawn (engine.step op).board motion := by
  cases op with
  | requestMove fromPos toPos =>
    rw [board_step engine fun _ ↦ Op.noConfusion]
    exact aims_requestMove hfresh hstarted hpawn
  | requestJump pos =>
    rcases engine.requestJump_cases pos with heq | ⟨-, heq⟩
    · rw [step_requestJump, heq] at hstarted
      exact absurd hstarted hfresh
    · rw [step_requestJump, heq, activeMotions_start, List.mem_append, List.mem_singleton]
        at hstarted
      obtain rfl := hstarted.resolve_left hfresh
      exact absurd htype (by simp [newJump])
  | queuePremove => exact absurd hstarted hfresh
  | advanceTime ms =>
    -- The premoves are accepted on the board that the arrivals leave.
    have hinitial : motion ∈ (engine.afterArrivals ms).activeMotions →
        AimsAsPawn (engine.afterArrivals ms).board motion := by
      intro hmem
      rw [activeMotions_afterArrivals] at hmem
      exact absurd (List.mem_of_mem_filter hmem) hfresh
    have hpremoves := processPremoves_induction
      (P := fun later ↦ later.board = (engine.afterArrivals ms).board ∧
        (motion ∈ later.activeMotions → AimsAsPawn (engine.afterArrivals ms).board motion))
      (fun _ _ hlater ↦ hlater) (fun later fromPos toPos hpast ↦ ?_)
      ⟨rfl, hinitial⟩ (engine.completing ms)
    · rw [step_advanceTime, advanceTime_eq, activeMotions, arbiter_applyCooldown] at hstarted
      rw [step_advanceTime, advanceTime_eq]
      apply (hpremoves.2 hstarted).congr
      rw [← hpremoves.1]
      exact sameKinds_applyCooldown _ _
    · obtain ⟨hboard, hlater⟩ := hpast
      constructor
      · rw [← hboard]
        exact requestMove_induction (P := fun next ↦ next.board = later.board) (fun _ ↦ rfl) rfl
      · intro hmem
        by_cases hold : motion ∈ later.activeMotions
        · exact hlater hold
        · rw [← hboard]
          exact aims_requestMove hold hmem hpawn
  | remoteGameEnded winner =>
    rw [step_remoteGameEnded] at hstarted
    split at hstarted
    · exact absurd hstarted hfresh
    · exact absurd hstarted hfresh

/-! ## Arrivals -/

theorem mem_emitted_iff {tick : Tick} {motion : Motion} {result : Outcome}
    {completed : CompletedMoveEvent} :
    .completedMove completed ∈ emitted tick motion result ↔
      result = .landed ∧ completed = completedMoveOf tick.board motion := by
  cases result <;> simp [emitted]

/-- The record of a move names a captured piece if the destination is occupied. -/
theorem captured_iff (board : Board) (motion : Motion) :
    (completedMoveOf board motion).capturedType ≠ .empty ↔
      (board.cell motion.destination).isEmpty = false := by
  simp only [completedMoveOf]
  cases h : (board.cell motion.destination).isEmpty with
  | true => simp
  | false => simpa using (Piece.isEmpty_eq_false_iff _).1 h

/-- The pawns that complete a move in the call capture when they change columns, and only then. -/
def PawnsCaptureDiagonally (engine : GameEngine) (ms : ℤ) : Prop :=
  ∀ completed, .completedMove completed ∈ (engine.arbiter.advanceTime ms engine.board).2.2 →
    completed.pieceType = .pawn →
      (completed.capturedType ≠ .empty ↔ completed.fromPos.col ≠ completed.toPos.col)

/-- The record is that of a pawn's move which the operation has started and which lands in the call
after the run: the pawn aimed at what its destination showed then, and captures what its destination
shows at its turn. -/
structure RecordsPawn (before : GameEngine) (ops : List Op) (ms : ℤ)
    (completed : CompletedMoveEvent) (past : List Op) (op : Op) (motion : Motion) : Prop where
  fresh : motion ∉ (before.reset.run past).activeMotions
  started : motion ∈ ((before.reset.run past).step op).activeMotions
  aims : AimsAsPawn ((before.reset.run past).step op).board motion
  lands : (before.reset.run ops).result ms motion = .landed
  completed_eq : completed = completedMoveOf ((before.reset.run ops).turn ms motion).board motion
  captures_iff : completed.capturedType ≠ .empty ↔
    (((before.reset.run ops).turn ms motion).board.cell motion.destination).isEmpty = false
  /-- The capture is diagonal, or the straight move is none, if the destination is occupied at the
  turn as it was at the start. -/
  diagonal_iff : (completed.capturedType ≠ .empty ↔ completed.fromPos.col ≠ completed.toPos.col) ↔
    ((((before.reset.run ops).turn ms motion).board.cell motion.destination).isEmpty = false ↔
      (((before.reset.run past).step op).board.cell motion.destination).isEmpty = false)

/-- Every record of a completed pawn move comes from a move that was straight to an empty square or
diagonal onto an enemy when it was accepted, and names what stood on the destination at its turn. -/
theorem pawn_captures_arrived (before : GameEngine) (ops : List Op) (ms : ℕ)
    (completed : CompletedMoveEvent)
    (hcompleted : .completedMove completed ∈
      ((before.reset.run ops).arbiter.advanceTime ms (before.reset.run ops).board).2.2)
    (hpawn : completed.pieceType = .pawn) :
    ∃ past op future motion, ops = past ++ op :: future ∧
      RecordsPawn before ops ms completed past op motion := by
  have hlife := (reachable_run before ops).lifecycle
  rw [resolutions_advanceTime, hlife.resolutions_eq, List.mem_flatMap] at hcompleted
  obtain ⟨motion, hmem, hemitted⟩ := hcompleted
  obtain ⟨hresult, hcompleted⟩ := mem_emitted_iff.1 hemitted
  obtain ⟨hactive, htype, -⟩ := mem_completing.1 hmem
  obtain ⟨past, op, future, hsplit, hfresh, hstarted⟩ :=
    Transition.exists_step (P := fun engine : GameEngine ↦ motion ∈ engine.activeMotions)
      (show motion ∉ before.reset.activeMotions from List.not_mem_nil) hactive
  have hpiece : motion.pieceType = .pawn := by
    rw [hcompleted] at hpawn
    exact hpawn
  have haims := aims_of_started hfresh hstarted htype hpiece
  have hcaptures := captured_iff ((before.reset.run ops).turn ms motion).board motion
  rw [← hcompleted] at hcaptures
  refine ⟨past, op, future, motion, hsplit, hfresh, hstarted, haims, hresult, hcompleted, hcaptures,
    ?_⟩
  have hcolumns : completed.fromPos.col ≠ completed.toPos.col ↔
      motion.source.col ≠ motion.destination.col := by
    rw [hcompleted]
    rfl
  rw [hcaptures, hcolumns, haims.occupied_iff]

/-- A white pawn, and a black rook beside the square in front of it. -/
def pawnAndRookBoard : Board where
  cells := [[.empty, .empty], [.empty, .of .rook .black], [.of .pawn .white, .empty]]
  rectangular := by decide

/-- The rook sets out first, and half a second later the pawn steps ahead to the square that the
rook is going to. -/
def stepIntoRook : List Op :=
  [.requestMove ⟨1, 1⟩ ⟨1, 0⟩, .advanceTime 500, .requestMove ⟨2, 0⟩ ⟨1, 0⟩, .advanceTime 500]

/-- The rook has arrived when the pawn does, and is captured straight ahead. -/
theorem pawn_captures_straight_ahead :
    ¬ ((reset { board := pawnAndRookBoard }).run stepIntoRook).PawnsCaptureDiagonally 500 := by
  intro h
  have hcaptures := h
    { timestampMs := 1500
      pieceType := .pawn
      pieceColor := .white
      fromPos := ⟨2, 0⟩
      toPos := ⟨1, 0⟩
      capturedType := .rook
      capturedColor := .black } (by decide) rfl
  exact absurd (hcaptures.1 (by decide)) (by decide)

theorem pawn_captures_arrived_rook : ∃ past op future motion,
    stepIntoRook = past ++ op :: future ∧
      RecordsPawn { board := pawnAndRookBoard } stepIntoRook (500 : ℕ)
        { timestampMs := 1500
          pieceType := .pawn
          pieceColor := .white
          fromPos := ⟨2, 0⟩
          toPos := ⟨1, 0⟩
          capturedType := .rook
          capturedColor := .black } past op motion :=
  pawn_captures_arrived { board := pawnAndRookBoard } stepIntoRook 500 _ (by decide) rfl

end GameEngine

end KongFuChess.Engine
