import KongFuChess.Engine.Census
import Mathlib.Algebra.BigOperators.Group.Multiset.Basic
import Mathlib.Data.Multiset.Replicate
import Mathlib.Tactic.Abel

/-!
# No piece is lost

What a call of `advanceTime` does to the pieces of either side, as multisets of their types. A
piece leaves the board as a recorded victim or as the second to arrive on a square, and the only
change of a type is the promotion of a pawn; no square is touched that is not an end of a
completing move.
-/

namespace KongFuChess.Engine

open Model Realtime Rules Events

/-- The type of a piece of the given colour. -/
def typeIn (color : Color) (piece : Piece) : Multiset PieceType :=
  if piece.isEmpty = false ∧ piece.color = color then {piece.type} else 0

/-- The types of the pieces of the given colour. -/
def pieces (color : Color) (board : Board) : Multiset PieceType := board.total (typeIn color)

/-- The type of what a resolution captures from the given colour. -/
def victim (color : Color) : MoveResolution → Multiset PieceType
  | .completedMove completed =>
    if completed.capturedType ≠ .empty ∧ completed.capturedColor = color then
      {completed.capturedType}
    else 0
  | .jumpCapture jumpCapture =>
    if jumpCapture.victimColor = color then {jumpCapture.victimType} else 0

/-- The type of a piece of the given colour that arrives second on its square. -/
def tieLoser (color : Color) (tick : Tick) (motion : Motion) : Outcome → Multiset PieceType
  | .lostTie => typeIn color (tick.board.cell motion.source)
  | _ => 0

/-- One for a pawn of the given colour that lands on its last row. -/
def promotedPawn (color : Color) (board : Board) (motion : Motion) : Outcome → ℕ
  | .landed =>
    if motion.pieceType = .pawn ∧ motion.pieceColor = color ∧
        motion.destination.row = lastRow board color then 1 else 0
  | _ => 0

theorem visible_typeIn (color : Color) : Visible (typeIn color) where
  empty := by
    intro piece hempty
    rw [typeIn, if_neg]
    simp [hempty]
  congr := by
    intro left right hkind
    rw [typeIn, typeIn, Piece.isEmpty_congr hkind, Piece.color_congr hkind, Piece.type_congr hkind]

theorem typeIn_of_is {piece : Piece} {type : PieceType} {color : Color} (h : piece.Is type color)
    (side : Color) : typeIn side piece = if color = side then {type} else 0 := by
  simp only [typeIn, h.1, h.2.1, h.2.2, true_and]

/-! ## One arrival -/

/-- A landed piece is the mover, except that a queen has taken the place of a promoted pawn. -/
theorem typeIn_landedPiece (color : Color) {board : Board} {motion : Motion}
    (h : motion.Valid board) :
    typeIn color (landedPiece board motion) +
        Multiset.replicate (promotedPawn color board motion .landed) .pawn =
      typeIn color (board.cell motion.source) +
        Multiset.replicate (promotedPawn color board motion .landed) .queen := by
  rw [typeIn_of_is (landedPiece_is h), typeIn_of_is h]
  by_cases hcolor : motion.pieceColor = color
  swap
  · simp [promotedPawn, hcolor]
  by_cases hpromoted : motion.pieceType = .pawn ∧
      motion.destination.row = lastRow board motion.pieceColor
  · have htype : landedType board motion = .queen := if_pos hpromoted
    have hone : promotedPawn color board motion .landed = 1 :=
      if_pos ⟨hpromoted.1, hcolor, hcolor ▸ hpromoted.2⟩
    rw [htype, hone, hpromoted.1, if_pos hcolor, if_pos hcolor, Multiset.replicate_one,
      Multiset.replicate_one, add_comm]
  · have htype : landedType board motion = motion.pieceType := if_neg hpromoted
    have hzero : promotedPawn color board motion .landed = 0 := by
      apply if_neg
      rintro ⟨hpawn, hside, hrow⟩
      exact hpromoted ⟨hpawn, hside ▸ hrow⟩
    rw [htype, hzero, Multiset.replicate_zero, Multiset.replicate_zero]

theorem victim_completedMoveOf (color : Color) (board : Board) (motion : Motion) :
    victim color (.completedMove (completedMoveOf board motion)) =
      typeIn color (board.cell motion.destination) := by
  by_cases hempty : (board.cell motion.destination).isEmpty = true
  · simp [victim, completedMoveOf, typeIn, hempty]
  · have hfull := (Piece.isEmpty_eq_false_iff _).1 (Bool.not_eq_true _ ▸ hempty)
    simp [victim, completedMoveOf, typeIn, hempty, hfull]

/-- The account of one arrival. -/
theorem pieces_settle (color : Color) {activeMotions : List Motion} {tick : Tick}
    {motion : Motion} (hon : motion.OnBoard tick.board) {result : Outcome}
    (hresult : outcome activeMotions tick motion = result) :
    pieces color (tick.settle motion result).board +
          ((emitted tick motion result).map (victim color)).sum +
          tieLoser color tick motion result +
        Multiset.replicate (promotedPawn color tick.board motion result) .pawn =
      pieces color tick.board +
        Multiset.replicate (promotedPawn color tick.board motion result) .queen := by
  have hspec := outcome_spec activeMotions tick motion
  rw [hresult] at hspec
  have hremove : pieces color (tick.board.removePieceAt motion.source) +
      typeIn color (tick.board.cell motion.source) = pieces color tick.board :=
    total_removePieceAt (visible_typeIn color) tick.board hon.source
  cases result with
  | stale | blocked => simp [Tick.settle, emitted, tieLoser, promotedPawn]
  | lostTie => simpa [Tick.settle, emitted, tieLoser, promotedPawn] using hremove
  | jumpCaptured =>
    rw [typeIn_of_is hspec.1] at hremove
    simpa [Tick.settle, emitted, tieLoser, promotedPawn, victim, jumpCaptureOf] using hremove
  | landed =>
    have hland : pieces color (landOn tick.board motion) +
        (typeIn color (tick.board.cell motion.source) +
          typeIn color (tick.board.cell motion.destination)) =
      pieces color tick.board + typeIn color (landedPiece tick.board motion) :=
      total_landOn (visible_typeIn color) hon
    have hpiece := typeIn_landedPiece color hspec.1
    simp only [Tick.settle, emitted, tieLoser, List.map_cons, List.map_nil, List.sum_cons,
      List.sum_nil, victim_completedMoveOf, add_zero]
    -- The mover stands on both sides of the account.
    apply add_left_cancel (a := typeIn color (tick.board.cell motion.source))
    calc
      _ = pieces color (landOn tick.board motion) +
            (typeIn color (tick.board.cell motion.source) +
              typeIn color (tick.board.cell motion.destination)) +
          Multiset.replicate (promotedPawn color tick.board motion .landed) .pawn := by abel
      _ = pieces color tick.board + (typeIn color (landedPiece tick.board motion) +
          Multiset.replicate (promotedPawn color tick.board motion .landed) .pawn) := by
        rw [hland, add_assoc]
      _ = _ := by
        rw [hpiece]
        abel

namespace GameEngine

/-! ## One call of `advanceTime` -/

/-- The types of the victims that the resolutions of a call record. -/
def victims (color : Color) (engine : GameEngine) (ms : ℕ) : Multiset PieceType :=
  ((engine.arbiter.advanceTime ms engine.board).2.2.map (victim color)).sum

/-- The types of the pieces removed as later arrivals on a square already landed on. -/
def tieLosers (color : Color) (engine : GameEngine) (ms : ℕ) : Multiset PieceType :=
  ((engine.completing ms).map fun motion ↦
    tieLoser color (engine.turn ms motion) motion (engine.result ms motion)).sum

/-- The number of pawns that land on their last row. -/
def promotedPawns (color : Color) (engine : GameEngine) (ms : ℕ) : ℕ :=
  ((engine.completing ms).map fun motion ↦
    promotedPawn color engine.board motion (engine.result ms motion)).sum

theorem promotedPawn_congr {left right : Board} (h : left.rows = right.rows) (color : Color)
    (motion : Motion) (result : Outcome) :
    promotedPawn color left motion result = promotedPawn color right motion result := by
  cases result with
  | stale | blocked | jumpCaptured | lostTie => rfl
  | landed => simp only [promotedPawn, lastRow_congr h]

/-- The account of the arrivals of a call. -/
theorem Lifecycle.pieces_arrivalTick {engine : GameEngine} (h : engine.Lifecycle) (color : Color)
    (ms : ℕ) :
    pieces color (engine.arrivalTick ms).board + engine.victims color ms +
          engine.tieLosers color ms +
        Multiset.replicate (engine.promotedPawns color ms) .pawn =
      pieces color engine.board + Multiset.replicate (engine.promotedPawns color ms) .queen := by
  rw [victims, resolutions_advanceTime, tieLosers, promotedPawns]
  refine (h.turns ms (I := fun past tick ↦
    tick.board.rows = engine.board.rows ∧
    pieces color tick.board + (tick.resolutions.map (victim color)).sum +
          (past.map fun motion ↦
            tieLoser color (engine.turn ms motion) motion (engine.result ms motion)).sum +
        Multiset.replicate (past.map fun motion ↦
          promotedPawn color engine.board motion (engine.result ms motion)).sum .pawn =
      pieces color engine.board + Multiset.replicate (past.map fun motion ↦
        promotedPawn color engine.board motion (engine.result ms motion)).sum .queen) ?_ ?_).2.2
  · refine ⟨(engine.sameKinds_arrivalStart ms).rows, ?_⟩
    rw [pieces, total_arrivalStart _ _ (visible_typeIn color)]
    simp [pieces, arrivalStart]
  · rintro past motion future - hon ⟨hrows, hpast⟩
    refine ⟨(rows_settle ..).trans hrows, ?_⟩
    have hturn := pieces_settle color hon (rfl : _ = engine.result ms motion)
    rw [promotedPawn_congr hrows] at hturn
    simp only [resolutions_settle, List.map_append, List.sum_append, List.map_cons, List.map_nil,
      List.sum_cons, List.sum_nil, add_zero, Multiset.replicate_add] at hpast ⊢
    set resolved := (engine.turn ms motion).resolutions
    set losers := (past.map fun motion ↦
      tieLoser color (engine.turn ms motion) motion (engine.result ms motion)).sum
    set pawns := (past.map fun motion ↦
      promotedPawn color engine.board motion (engine.result ms motion)).sum
    calc
      _ = (pieces color ((engine.turn ms motion).settle motion (engine.result ms motion)).board +
              ((emitted (engine.turn ms motion) motion (engine.result ms motion)).map
                (victim color)).sum +
            tieLoser color (engine.turn ms motion) motion (engine.result ms motion) +
            Multiset.replicate
              (promotedPawn color engine.board motion (engine.result ms motion)) .pawn) +
          ((resolved.map (victim color)).sum + losers + Multiset.replicate pawns .pawn) := by abel
      _ = (pieces color (engine.turn ms motion).board + (resolved.map (victim color)).sum +
              losers + Multiset.replicate pawns .pawn) +
          Multiset.replicate
            (promotedPawn color engine.board motion (engine.result ms motion)) .queen := by
        rw [hturn]
        abel
      _ = _ := by
        rw [hpast]
        abel

theorem pieces_advanceTime (color : Color) (engine : GameEngine) (ms : ℕ) :
    pieces color (engine.advanceTime ms).board = pieces color (engine.arrivalTick ms).board :=
  total_advanceTime engine ms (visible_typeIn color)

/-- A square that no completing move starts from or goes to looks the same after the call. -/
theorem Lifecycle.kind_advanceTime {engine : GameEngine} (h : engine.Lifecycle) {ms : ℕ}
    {pos : Position} (hpos : ∀ motion ∈ engine.completing ms,
      motion.source ≠ pos ∧ motion.destination ≠ pos) :
    ((engine.advanceTime ms).board.cell pos).kind = (engine.board.cell pos).kind := by
  have hunvacated : engine.Unvacated ms (engine.completing ms) pos :=
    fun motion hmem heq ↦ absurd heq (hpos motion hmem).1
  have hunarrived : pos ∉ (engine.arrivalTick ms).arrivedThisTick := by
    intro harrived
    obtain ⟨mover, hmem, hsquare⟩ := h.exists_of_arrived harrived
    exact (hpos mover hmem).2 hsquare
  exact h.kind_of_untouched hunvacated hunarrived

/-- Calls of `advanceTime` account for every piece: other squares than the ends of completing moves
look the same afterwards, and the pieces of either side are those of before with the promoted pawns
replaced by queens, without the recorded victims and the second arrivals. -/
theorem pieces_accounted (before : GameEngine) (ops : List Op) (ms : ℕ) :
    (∀ pos, (∀ motion ∈ (before.reset.run ops).completing ms,
        motion.source ≠ pos ∧ motion.destination ≠ pos) →
      (((before.reset.run ops).advanceTime ms).board.cell pos).kind =
        ((before.reset.run ops).board.cell pos).kind) ∧
    ∀ color,
      Multiset.replicate ((before.reset.run ops).promotedPawns color ms) .pawn ≤
          pieces color (before.reset.run ops).board ∧
        pieces color ((before.reset.run ops).advanceTime ms).board +
            (before.reset.run ops).victims color ms + (before.reset.run ops).tieLosers color ms =
          pieces color (before.reset.run ops).board -
              Multiset.replicate ((before.reset.run ops).promotedPawns color ms) .pawn +
            Multiset.replicate ((before.reset.run ops).promotedPawns color ms) .queen := by
  have hlife := (reachable_run before ops).lifecycle
  refine ⟨fun pos hpos ↦ hlife.kind_advanceTime hpos, fun color ↦ ?_⟩
  have haccount := hlife.pieces_arrivalTick color ms
  have hpawns : Multiset.replicate ((before.reset.run ops).promotedPawns color ms) .pawn ≤
      pieces color (before.reset.run ops).board := by
    have hcount := congrArg (Multiset.count .pawn) haccount
    rw [← Multiset.le_count_iff_replicate_le]
    simp only [Multiset.count_add, Multiset.count_replicate, if_true, reduceCtorEq, if_false,
      add_zero] at hcount
    omega
  refine ⟨hpawns, ?_⟩
  rw [pieces_advanceTime, tsub_add_eq_add_tsub hpawns, ← haccount, add_tsub_cancel_right]

end GameEngine

end KongFuChess.Engine
