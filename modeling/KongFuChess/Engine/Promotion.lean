import KongFuChess.Engine.Landings

/-!
# Promotion

A pawn becomes a queen where its move lands on the last row, and the arrival is the only place where
the engine changes the type of a piece. So no pawn is ever seen on its own last row, unless the game
was set up with one there, and a piece whose type has changed in a call has landed on its last row
in that call as a pawn.
-/

namespace KongFuChess.Engine

open Model Realtime Rules Events

/-- No pawn stands on its own promotion row. -/
def NoPawnOnLastRow (board : Board) : Prop :=
  ∀ pos, (board.cell pos).type = .pawn → pos.row ≠ lastRow board (board.cell pos).color

theorem NoPawnOnLastRow.congr {left right : Board} (h : NoPawnOnLastRow left)
    (hsame : SameKinds right left) : NoPawnOnLastRow right := by
  intro pos hpawn
  rw [hsame.type] at hpawn
  rw [hsame.color, lastRow_congr hsame.rows]
  exact h pos hpawn

/-- A board without a pawn on the last rows, checked cell by cell. -/
theorem noPawnOnLastRow_of_forall {board : Board}
    (h : ∀ color, ∀ col ∈ List.range board.cols,
      ¬ (board.cell ⟨lastRow board color, (col : ℕ)⟩).Is .pawn color) :
    NoPawnOnLastRow board := by
  intro pos hpawn hrow
  have hfull : (board.cell pos).isEmpty = false := by
    rw [Piece.isEmpty_eq_false_iff, hpawn]
    decide
  have hin : board.inBounds pos = true := by
    by_contra hout
    rw [Board.cell_of_not_inBounds board (by simpa using hout)] at hfull
    exact Bool.false_ne_true hfull.symm
  obtain ⟨-, -, hcol, hcols⟩ := (board.inBounds_iff pos).1 hin
  have hpos : pos = ⟨lastRow board (board.cell pos).color, (pos.col.toNat : ℕ)⟩ := by
    apply Position.ext hrow
    simp only
    omega
  refine h (board.cell pos).color pos.col.toNat (List.mem_range.2 (by omega)) ?_
  rw [← hpos]
  exact ⟨hfull, hpawn, rfl⟩

namespace GameEngine

/-- The piece from the given square lands in the call as a pawn on its promotion row. -/
def PromotedFrom (engine : GameEngine) (ms : ℤ) (origin : Position) : Prop :=
  ∃ motion ∈ engine.completing ms, engine.result ms motion = .landed ∧ motion.pieceType = .pawn ∧
    motion.destination.row = lastRow engine.board (engine.board.cell origin).color ∧
    (engine.occupantsLanded ms motion).origin motion.destination = origin

/-- A piece that survives the call keeps its colour, and its type unless it is promoted. -/
def ChangesByPromotion (engine : GameEngine) (ms : ℤ) : Prop :=
  ∀ pos, ((engine.advanceTime ms).board.cell pos).isEmpty = false →
    ((engine.advanceTime ms).board.cell pos).color =
        (engine.board.cell ((engine.occupantsAfter ms).origin pos)).color ∧
      (((engine.advanceTime ms).board.cell pos).type ≠
          (engine.board.cell ((engine.occupantsAfter ms).origin pos)).type →
        (engine.board.cell ((engine.occupantsAfter ms).origin pos)).type = .pawn ∧
          ((engine.advanceTime ms).board.cell pos).type = .queen ∧
          engine.PromotedFrom ms ((engine.occupantsAfter ms).origin pos))

variable {engine : GameEngine} {ms : ℤ}

/-- A landing leaves no pawn on its promotion row. -/
theorem landedPiece_row {board : Board} {motion : Motion}
    (hpawn : (landedPiece board motion).type = .pawn) :
    motion.destination.row ≠ lastRow board (landedPiece board motion).color := by
  rw [landedPiece_type] at hpawn
  rw [landedPiece_color]
  intro hrow
  split at hpawn
  · exact absurd hpawn (by decide)
  · rename_i hnot
    exact hnot ⟨hpawn, hrow⟩

theorem Lifecycle.noPawnOnLastRow_arrivalTick (h : engine.Lifecycle)
    (hrows : NoPawnOnLastRow engine.board) : NoPawnOnLastRow (engine.arrivalTick ms).board := by
  refine (h.turns ms (I := fun _ tick ↦ NoPawnOnLastRow tick.board)
    (hrows.congr (engine.sameKinds_arrivalStart ms)) ?_).2
  intro past motion future _ hon hpast pos
  rw [lastRow_congr (rows_settle ..)]
  by_cases hnew : engine.result ms motion = .landed ∧ pos = motion.destination
  · obtain ⟨hresult, rfl⟩ := hnew
    rw [hresult, cell_settle_landed hon]
    exact landedPiece_row
  · rcases cell_settle_or_empty hon hnew with hcell | hempty
    · rw [hcell]
      exact hpast pos
    · rw [hempty]
      intro hpawn
      exact absurd hpawn (by decide)

theorem Lifecycle.changesByPromotion (h : engine.Lifecycle) (ms : ℤ) :
    engine.ChangesByPromotion ms := by
  intro pos hfull
  rw [(sameKinds_advanceTime engine ms).isEmpty] at hfull
  rw [(sameKinds_advanceTime engine ms).color, (sameKinds_advanceTime engine ms).type]
  refine h.pieces_induction (I := fun past origin piece ↦
    piece.color = (engine.board.cell origin).color ∧
      (piece.type ≠ (engine.board.cell origin).type →
        (engine.board.cell origin).type = .pawn ∧ piece.type = .queen ∧
          engine.PromotedFrom ms origin)) ?_ (fun _ _ _ _ hpast ↦ hpast) ?_ hfull
  · intro pos _
    have hkinds := engine.sameKinds_arrivalStart ms
    exact ⟨hkinds.color pos, fun hne ↦ absurd (hkinds.type pos) hne⟩
  · rintro past motion future hsplit hresult ⟨hcolor, htype⟩
    have hvalid := valid_of_landed hresult
    rw [landedPiece_color, landedPiece_type]
    refine ⟨hcolor, ?_⟩
    split
    · rename_i hpromotes
      intro _
      -- The piece that lands is still a pawn, so it has not been promoted before.
      have horigin : (engine.board.cell
          ((engine.occupantsLanded ms motion).origin motion.destination)).type = .pawn := by
        by_contra hnot
        have hqueen := (htype (by rw [hpromotes.1]; exact Ne.symm hnot)).2.1
        rw [hpromotes.1] at hqueen
        exact absurd hqueen (by decide)
      refine ⟨horigin, rfl, motion, by simp [hsplit], hresult, ?_, ?_, rfl⟩
      · exact hvalid.type.symm.trans hpromotes.1
      · rw [hpromotes.2, hcolor, lastRow_congr (h.frame_turn hsplit).rows]
    · exact htype

theorem NoPawnOnLastRow.step (hrows : NoPawnOnLastRow engine.board) (hlife : engine.Lifecycle)
    (op : Op) : NoPawnOnLastRow (engine.step op).board := by
  cases op with
  | advanceTime ms =>
    exact (hlife.noPawnOnLastRow_arrivalTick hrows).congr (sameKinds_advanceTime engine ms)
  | requestMove | requestJump | queuePremove | remoteGameEnded =>
    rw [board_step engine fun _ ↦ Op.noConfusion]
    exact hrows

/-- A game set up without a pawn on its own last row never shows one there, and the type of a piece
changes in a call only where a pawn lands on its last row. -/
theorem promotes_on_lastRow (before : GameEngine) (ops : List Op)
    (hstart : NoPawnOnLastRow before.board) :
    NoPawnOnLastRow (before.reset.run ops).board ∧
      ∀ ms : ℕ, (before.reset.run ops).ChangesByPromotion ms := by
  have hlife := (reachable_run before ops).lifecycle
  refine ⟨?_, fun ms ↦ hlife.changesByPromotion ms⟩
  refine (Transition.run_invariant step
    (I := fun engine ↦ engine.Lifecycle ∧ NoPawnOnLastRow engine.board) ?_ ?_ ops).2
  · rintro engine op ⟨hengine, hrows⟩
    exact ⟨hengine.step op, NoPawnOnLastRow.step hrows hengine op⟩
  · exact ⟨lifecycle_reset before, hstart⟩

/-- A white pawn in front of its last row. -/
def lastStepBoard : Board where
  cells := [[.empty], [.of .pawn .white]]
  rectangular := by decide

/-- One second later it is a queen. -/
theorem promotes_on_lastRow_lastStep :
    (((reset { board := lastStepBoard }).run
        [.requestMove ⟨1, 0⟩ ⟨0, 0⟩, .advanceTime 1000]).board.cell ⟨0, 0⟩).type = .queen ∧
      NoPawnOnLastRow ((reset { board := lastStepBoard }).run
        [.requestMove ⟨1, 0⟩ ⟨0, 0⟩, .advanceTime 1000]).board :=
  ⟨by decide, (promotes_on_lastRow { board := lastStepBoard }
    [.requestMove ⟨1, 0⟩ ⟨0, 0⟩, .advanceTime 1000] (noPawnOnLastRow_of_forall (by decide))).1⟩

end GameEngine

end KongFuChess.Engine
