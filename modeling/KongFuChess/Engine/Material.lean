import KongFuChess.Engine.Census

/-!
# The material ledger

The capture scores of the move log account for all material that leaves the board, except for the
pieces that arrive second on a square and are removed without an entry. Promotions are the only
gain. Over a run the material of either side is therefore what the reset found, plus the
promotions, minus the score of the opponent, minus the unlogged removals.
-/

namespace KongFuChess.Engine

open Model Realtime Rules Events

/-- The capture value of a piece of the given colour. -/
def pieceValue (color : Color) (piece : Piece) : ℤ :=
  if piece.color = color then MoveLog.captureValue piece.type else 0

def material (color : Color) (board : Board) : ℤ := board.total (pieceValue color)

theorem visible_pieceValue (color : Color) : Visible (pieceValue color) where
  empty := by
    intro piece hempty
    rw [Piece.isEmpty_iff] at hempty
    simp [pieceValue, hempty, MoveLog.captureValue]
  congr := by
    intro left right hkind
    rw [pieceValue, pieceValue, Piece.type_congr hkind, Piece.color_congr hkind]

/-- The value of what a resolution captures from the given colour. -/
def capturedValue (color : Color) : MoveResolution → ℤ
  | .completedMove completed =>
    if completed.capturedColor = color then MoveLog.captureValue completed.capturedType else 0
  | .jumpCapture jumpCapture =>
    if jumpCapture.victimColor = color then MoveLog.captureValue jumpCapture.victimType else 0

/-- A resolution that captures anything captures from the opponent of the side it scores for. -/
def ScoresEnemy : MoveResolution → Prop
  | .completedMove completed =>
    completed.capturedType ≠ .empty → completed.capturedColor = completed.pieceColor.opposite
  | .jumpCapture jumpCapture => jumpCapture.victimColor = jumpCapture.jumperColor.opposite

/-- One for a pawn of the given colour that the arrival turns into a queen. -/
def promotionCount (color : Color) (tick : Tick) (motion : Motion) : Outcome → ℤ
  | .landed =>
    if (tick.board.cell motion.source).Is .pawn color ∧
        (landedPiece tick.board motion).type = .queen then 1 else 0
  | _ => 0

/-- The value of a piece of the given colour that arrives second on its square. -/
def tieLossValue (color : Color) (tick : Tick) (motion : Motion) : Outcome → ℤ
  | .lostTie => pieceValue color (tick.board.cell motion.source)
  | _ => 0

/-! ## One arrival -/

theorem scoresEnemy_of_mem_emitted {activeMotions : List Motion} {tick : Tick} {motion : Motion}
    {resolution : MoveResolution}
    (h : resolution ∈ emitted tick motion (outcome activeMotions tick motion)) :
    ScoresEnemy resolution := by
  have hspec := outcome_spec activeMotions tick motion
  cases hresult : outcome activeMotions tick motion with
  | stale | blocked | lostTie => simp [hresult, emitted] at h
  | jumpCaptured =>
    simp only [hresult, emitted, List.mem_singleton] at h hspec
    subst h
    simp only [ScoresEnemy, jumpCaptureOf, hspec.2.1.2, Color.opposite_opposite]
  | landed =>
    simp only [hresult, emitted, List.mem_singleton] at h hspec
    subst h
    simp only [ScoresEnemy, completedMoveOf]
    rcases hspec.2 with hempty | ⟨henemy, -, -⟩
    · simp [hempty]
    · simp [henemy.1, henemy.2]

/-- The value that a landed piece has gained by a promotion. -/
theorem pieceValue_landedPiece (color : Color) (tick : Tick) (motion : Motion) :
    pieceValue color (landedPiece tick.board motion) =
      pieceValue color (tick.board.cell motion.source) +
        8 * promotionCount color tick motion .landed := by
  simp only [promotionCount, pieceValue, landedPiece_color]
  by_cases hcolor : (tick.board.cell motion.source).color = color
  swap
  · simp [hcolor, Piece.Is]
  by_cases hpawn : (tick.board.cell motion.source).type = .pawn
  · by_cases hrow : motion.destination.row = lastRow tick.board color
    · simp [landedPiece_type, hcolor, hpawn, hrow, Piece.Is, Piece.isEmpty, MoveLog.captureValue]
    · simp [landedPiece_type, hcolor, hpawn, hrow]
  · simp [landedPiece_type, hcolor, hpawn, Piece.Is]

/-- The balance of one arrival. -/
theorem material_settle (color : Color) {activeMotions : List Motion} {tick : Tick}
    {motion : Motion} (hon : motion.OnBoard tick.board) :
    material color (tick.settle motion (outcome activeMotions tick motion)).board =
      material color tick.board +
        8 * promotionCount color tick motion (outcome activeMotions tick motion) -
        ((emitted tick motion (outcome activeMotions tick motion)).map (capturedValue color)).sum -
        tieLossValue color tick motion (outcome activeMotions tick motion) := by
  have hspec := outcome_spec activeMotions tick motion
  rw [material, total_settle (visible_pieceValue color) hon]
  cases hresult : outcome activeMotions tick motion with
  | stale | blocked => simp [emitted, promotionCount, tieLossValue, material]
  | lostTie => simp [emitted, promotionCount, tieLossValue, material]
  | jumpCaptured =>
    simp only [hresult] at hspec
    simp [emitted, promotionCount, tieLossValue, material, capturedValue, jumpCaptureOf,
      pieceValue, hspec.1.type, hspec.1.color]
  | landed =>
    have hcaptured : capturedValue color (.completedMove (completedMoveOf tick.board motion)) =
        pieceValue color (tick.board.cell motion.destination) := by
      by_cases hempty : (tick.board.cell motion.destination).isEmpty = true
      · rw [(visible_pieceValue color).empty _ hempty]
        simp [capturedValue, completedMoveOf, hempty, MoveLog.captureValue]
      · simp [capturedValue, completedMoveOf, hempty, pieceValue]
    simp only [emitted, tieLossValue, material, List.map_cons, List.map_nil, List.sum_cons,
      List.sum_nil, hcaptured, pieceValue_landedPiece]
    omega

/-! ## The log -/

theorem pointsOf_opposite {resolution : MoveResolution} (h : ScoresEnemy resolution)
    (color : Color) :
    MoveLog.pointsOf color.opposite resolution = capturedValue color resolution := by
  cases resolution with
  | completedMove completed =>
    by_cases hcaptured : completed.capturedType = .empty
    · simp [MoveLog.pointsOf, capturedValue, hcaptured, MoveLog.captureValue]
    · simp only [MoveLog.pointsOf, capturedValue, h hcaptured, Color.opposite_eq_iff]
  | jumpCapture jumpCapture =>
    have henemy : jumpCapture.victimColor = jumpCapture.jumperColor.opposite := h
    simp only [MoveLog.pointsOf, capturedValue, henemy, Color.opposite_eq_iff]

namespace GameEngine

/-! ## One call of `advanceTime` -/

/-- The pawns of the given colour promoted during a call. -/
def promotions (color : Color) (engine : GameEngine) (ms : ℕ) : ℤ :=
  ((engine.arrivals ms).map fun motion ↦
    promotionCount color (engine.turn ms motion) motion (engine.result ms motion)).sum

/-- The value of the pieces of the given colour removed during a call as the second arrivals on
their squares. -/
def tieLosses (color : Color) (engine : GameEngine) (ms : ℕ) : ℤ :=
  ((engine.arrivals ms).map fun motion ↦
    tieLossValue color (engine.turn ms motion) motion (engine.result ms motion)).sum

/-- The number of resolutions that the arbiter returns from a call. -/
def emittedCount (engine : GameEngine) (ms : ℕ) : ℕ :=
  (engine.arbiter.advanceTime ms engine.board).2.2.length

theorem Lifecycle.scoresEnemy {engine : GameEngine} (h : engine.Lifecycle) (ms : ℤ) :
    ∀ resolution ∈ (engine.arrivalTick ms).resolutions, ScoresEnemy resolution := by
  intro resolution hmem
  rw [h.resolutions_eq, List.mem_flatMap] at hmem
  obtain ⟨motion, -, hemitted⟩ := hmem
  exact scoresEnemy_of_mem_emitted hemitted

/-- The balance of the arrivals of one call. -/
theorem Lifecycle.material_arrivalTick {engine : GameEngine} (h : engine.Lifecycle) (color : Color)
    (ms : ℕ) :
    material color (engine.arrivalTick ms).board =
      material color engine.board + 8 * engine.promotions color ms -
        ((engine.arrivalTick ms).resolutions.map (capturedValue color)).sum -
        engine.tieLosses color ms := by
  rw [promotions, tieLosses, h.arrivals_eq]
  refine (h.turns ms (I := fun past tick ↦ material color tick.board =
    material color engine.board +
      8 * (past.map fun motion ↦
        promotionCount color (engine.turn ms motion) motion (engine.result ms motion)).sum -
      (tick.resolutions.map (capturedValue color)).sum -
      (past.map fun motion ↦
        tieLossValue color (engine.turn ms motion) motion (engine.result ms motion)).sum) ?_ ?_).2
  · rw [material, total_arrivalStart _ _ (visible_pieceValue color)]
    simp [material, arrivalStart]
  · intro past motion future _ hon hpast
    rw [result, material_settle color hon, hpast, resolutions_settle]
    simp only [List.map_append, List.sum_append, List.map_cons, List.map_nil, List.sum_cons,
      List.sum_nil, result]
    omega

theorem Lifecycle.material_advanceTime {engine : GameEngine} (h : engine.Lifecycle) (color : Color)
    (ms : ℕ) :
    material color (engine.advanceTime ms).board +
        (engine.advanceTime ms).moveLog.score color.opposite + engine.tieLosses color ms =
      material color engine.board + engine.moveLog.score color.opposite +
        8 * engine.promotions color ms := by
  have hscore := MoveLog.score_foldl_record (engine.arrivalTick ms).resolutions engine.moveLog
    color.opposite
  rw [List.map_congr_left fun resolution hmem ↦
    pointsOf_opposite (h.scoresEnemy ms resolution hmem) color] at hscore
  have hmaterial := h.material_arrivalTick color ms
  rw [moveLog_advanceTime, moveLog_afterArrivals, hscore, material,
    total_advanceTime _ _ (visible_pieceValue color), ← material, hmaterial]
  omega

/-! ## Whole runs -/

theorem material_run (before : GameEngine) (ops : List Op) (color : Color) :
    material color (before.reset.run ops).board +
        (before.reset.run ops).moveLog.score color.opposite +
        Transition.accumulate step (duringAdvance (tieLosses color)) before.reset ops =
      material color before.board +
        8 * Transition.accumulate step (duringAdvance (promotions color)) before.reset ops := by
  have hbalance := Transition.accumulate_balance (I := Lifecycle) step
    (fun engine ↦ material color engine.board + engine.moveLog.score color.opposite)
    (fun engine op ↦ 8 * duringAdvance (promotions color) engine op)
    (duringAdvance (tieLosses color)) (fun _ op h ↦ h.step op) ?_ before.reset
    (lifecycle_reset before) ops
  · have hzero : before.reset.moveLog.score color.opposite = 0 := by
      cases color <;> rfl
    rwa [Transition.accumulate_mul, hzero, add_zero] at hbalance
  · intro engine op hlife
    by_cases hadvance : ∃ ms, op = .advanceTime ms
    · obtain ⟨ms, rfl⟩ := hadvance
      exact hlife.material_advanceTime color ms
    · have hother : ∀ ms, op ≠ .advanceTime ms := fun ms heq ↦ hadvance ⟨ms, heq⟩
      rw [board_step _ hother, moveLog_step _ hother, duringAdvance_of_ne _ _ hother,
        duringAdvance_of_ne _ _ hother, mul_zero]

theorem length_entries_run (before : GameEngine) (ops : List Op) :
    (before.reset.run ops).moveLog.entries.length =
      Transition.accumulate step (duringAdvance emittedCount) before.reset ops := by
  have hbalance := Transition.accumulate_balance (I := Lifecycle) step
    (fun engine ↦ engine.moveLog.entries.length) (duringAdvance emittedCount) (fun _ _ ↦ 0)
    (fun _ op h ↦ h.step op) ?_ before.reset (lifecycle_reset before) ops
  · have hzero : before.reset.moveLog.entries.length = 0 := rfl
    rwa [Transition.accumulate_zero, add_zero, hzero, zero_add] at hbalance
  · intro engine op _
    by_cases hadvance : ∃ ms, op = .advanceTime ms
    · obtain ⟨ms, rfl⟩ := hadvance
      simp only [step_advanceTime, moveLog_advanceTime, moveLog_afterArrivals, duringAdvance,
        MoveLog.entries_foldl_record, List.length_append, List.length_map, emittedCount,
        resolutions_advanceTime, add_zero]
    · have hother : ∀ ms, op ≠ .advanceTime ms := fun ms heq ↦ hadvance ⟨ms, heq⟩
      rw [moveLog_step _ hother, duringAdvance_of_ne _ _ hother]

/-- The material ledger of a run since the last reset, for either colour: the material on the board
is what the reset found, plus 8 for each promotion, minus the score of the opponent, minus the
second arrivals. The log has one entry for each emitted resolution, and every capture that it
scores is one from the opponent of the scorer. -/
theorem material_ledger (before : GameEngine) (ops : List Op) (color : Color) :
    material color (before.reset.run ops).board =
        material color before.board +
          8 * Transition.accumulate step (duringAdvance (promotions color)) before.reset ops -
          (before.reset.run ops).moveLog.score color.opposite -
          Transition.accumulate step (duringAdvance (tieLosses color)) before.reset ops ∧
      (before.reset.run ops).moveLog.entries.length =
        Transition.accumulate step (duringAdvance emittedCount) before.reset ops ∧
      Transition.Along step (AtAdvance fun engine ms ↦
        ∀ resolution ∈ (engine.arbiter.advanceTime ms engine.board).2.2, ScoresEnemy resolution)
        before.reset ops := by
  refine ⟨?_, length_entries_run before ops, ?_⟩
  · have hbalance := material_run before ops color
    omega
  · refine Transition.Along.of_invariant (I := Lifecycle) (fun _ op h ↦ h.step op) ?_
      (lifecycle_reset before) ops
    intro engine op hlife
    cases op with
    | advanceTime ms => exact hlife.scoresEnemy ms
    | _ => trivial

end GameEngine

end KongFuChess.Engine
