import KongFuChess.Engine.Turns

/-!
# Arrivals that do not interfere

An arrival reads and writes the two squares of its motion only, and it does not look at cooldowns.
So it does the same to ticks whose boards show the same types and colours, and two arrivals whose
motions share no square can be exchanged.
-/

namespace KongFuChess.Engine

open Model Realtime Rules Events

/-- The effect of the arrival of a motion whose squares are on the board. -/
def arrive (activeMotions : List Motion) (tick : Tick) (motion : Motion) : Tick :=
  tick.settle motion (outcome activeMotions tick motion)

theorem foldl_resolveMoveArrival (activeMotions : List Motion) {arrivals : List Motion}
    {tick : Tick} (hon : ∀ motion ∈ arrivals, motion.OnBoard tick.board) :
    arrivals.foldl (resolveMoveArrival activeMotions) tick =
      Transition.run (arrive activeMotions) tick arrivals := by
  induction arrivals generalizing tick with
  | nil => rfl
  | cons motion rest ih =>
    have hmotion := hon motion (List.mem_cons_self ..)
    rw [List.foldl_cons, resolveMoveArrival_eq_settle _ _ hmotion]
    exact ih fun other hother ↦
      (hon other (List.mem_cons_of_mem _ hother)).congr fun pos ↦ inBounds_settle ..

/-- The arrivals of one call, as a run in the order of the list. -/
theorem GameEngine.Orderly.arrivalTick_eq_run {engine : GameEngine} (h : engine.Orderly) (ms : ℤ) :
    engine.arrivalTick ms =
      Transition.run (arrive engine.activeMotions) (engine.arrivalStart ms)
        (engine.completing ms) := by
  rw [GameEngine.arrivalTick, h.arrivals_eq]
  exact foldl_resolveMoveArrival _ fun motion hmem ↦ h.onBoard_decreased hmem

/-! ## What an arrival depends on -/

section Congruence

variable {left right : Tick} {motion : Motion}

/-- An outcome depends on what the two squares show and, if an enemy stands on the destination, on
whether that enemy is airborne or has just arrived. -/
theorem outcome_congr {activeMotions activeMotions' : List Motion}
    (hsource : (left.board.cell motion.source).kind = (right.board.cell motion.source).kind)
    (hdestination :
      (left.board.cell motion.destination).kind = (right.board.cell motion.destination).kind)
    (henemy : Enemy (left.board.cell motion.destination) motion.pieceColor →
      isJumpActiveAt activeMotions motion.destination =
          isJumpActiveAt activeMotions' motion.destination ∧
        (motion.destination ∈ left.arrivedThisTick ↔
          motion.destination ∈ right.arrivedThisTick)) :
    outcome activeMotions left motion = outcome activeMotions' right motion := by
  have hvalid : motion.Valid left.board ↔ motion.Valid right.board :=
    ⟨Piece.Is.of_kind_eq hsource.symm, Piece.Is.of_kind_eq hsource⟩
  have hempty := Piece.isEmpty_congr hdestination
  have hfriendly := Piece.isFriendly_congr hdestination motion.pieceColor
  simp only [outcome, hvalid, ← hempty, ← hfriendly]
  split
  · rfl
  · split
    · rfl
    · rename_i hnotFriendly
      by_cases hfull : (left.board.cell motion.destination).isEmpty = false
      · obtain ⟨hjump, harrived⟩ := henemy
          ⟨hfull, Piece.color_of_not_isFriendly hfull (by simpa using hnotFriendly)⟩
        rw [← squareArrivedThisTick_iff, ← squareArrivedThisTick_iff, ← Bool.eq_iff_iff] at harrived
        rw [hjump, harrived]
      · simp [Bool.eq_true_of_not_eq_false hfull]

theorem emitted_congr
    (hdestination :
      (left.board.cell motion.destination).kind = (right.board.cell motion.destination).kind)
    (result : Outcome) : emitted left motion result = emitted right motion result := by
  cases result with
  | stale | blocked | lostTie => rfl
  | jumpCaptured =>
    rw [emitted, emitted, jumpCaptureOf, jumpCaptureOf, Piece.type_congr hdestination,
      Piece.color_congr hdestination]
  | landed => rw [emitted, emitted, completedMoveOf_congr hdestination]

theorem SameKinds.setCell_congr {left right : Board} (h : SameKinds left right) (pos : Position)
    {piece piece' : Piece} (hkind : piece.kind = piece'.kind) :
    SameKinds (left.setCell pos piece) (right.setCell pos piece') := by
  refine ⟨fun other ↦ by simpa using h.inBounds other, by simpa using h.rows, fun other ↦ ?_⟩
  rw [Board.cell_setCell, Board.cell_setCell, h.inBounds]
  split
  · exact hkind
  · exact h.kind other

theorem SameKinds.settle (h : SameKinds left.board right.board) (motion : Motion)
    (result : Outcome) :
    SameKinds (left.settle motion result).board (right.settle motion result).board := by
  have hlanded : (landedPiece left.board motion).kind = (landedPiece right.board motion).kind := by
    rw [Piece.kind, Piece.kind, landedPiece_type, landedPiece_type, landedPiece_color,
      landedPiece_color, h.type, h.color, lastRow_congr h.rows]
  cases result with
  | stale | blocked => exact h
  | jumpCaptured | lostTie => exact h.setCell_congr motion.source rfl
  | landed => exact (h.setCell_congr motion.destination hlanded).setCell_congr motion.source rfl

end Congruence

/-- Two ticks that show the same types and colours, with the same squares reached and with similar
resolutions. -/
structure Alike (Similar : List MoveResolution → List MoveResolution → Prop)
    (left right : Tick) : Prop where
  board : SameKinds left.board right.board
  arrived : ∀ pos, pos ∈ left.arrivedThisTick ↔ pos ∈ right.arrivedThisTick
  resolutions : Similar left.resolutions right.resolutions

namespace Alike

variable {Similar : List MoveResolution → List MoveResolution → Prop}

theorem equivalence (hsimilar : Equivalence Similar) : Equivalence (Alike Similar) where
  refl _ := ⟨.refl _, fun _ ↦ Iff.rfl, hsimilar.refl _⟩
  symm h := ⟨h.board.symm, fun pos ↦ (h.arrived pos).symm, hsimilar.symm h.resolutions⟩
  trans h h' :=
    ⟨h.board.trans h'.board, fun pos ↦ (h.arrived pos).trans (h'.arrived pos),
      hsimilar.trans h.resolutions h'.resolutions⟩

/-- Arrivals treat ticks alike that look alike. -/
theorem arrive (happend : ∀ left right suffix, Similar left right →
      Similar (left ++ suffix) (right ++ suffix)) (activeMotions : List Motion) (motion : Motion)
    (left right : Tick) (h : Alike Similar left right) :
    Alike Similar (arrive activeMotions left motion) (arrive activeMotions right motion) := by
  have hresult : outcome activeMotions left motion = outcome activeMotions right motion :=
    outcome_congr (h.board.kind _) (h.board.kind _) fun _ ↦ ⟨rfl, h.arrived _⟩
  rw [Engine.arrive, Engine.arrive, hresult]
  refine ⟨h.board.settle motion _, fun pos ↦ ?_, ?_⟩
  · rw [mem_arrived_settle, mem_arrived_settle, h.arrived]
  · rw [resolutions_settle, resolutions_settle, emitted_congr (h.board.kind _)]
    exact happend _ _ _ h.resolutions

end Alike

/-! ## Motions that share no square -/

def squares (motion : Motion) : List Position := [motion.source, motion.destination]

def Apart (first second : Motion) : Prop := ∀ pos ∈ squares first, pos ∉ squares second

instance (first second : Motion) : Decidable (Apart first second) :=
  inferInstanceAs (Decidable (∀ pos ∈ squares first, pos ∉ squares second))

theorem Apart.symm {first second : Motion} (h : Apart first second) : Apart second first :=
  fun pos hsecond hfirst ↦ h pos hfirst hsecond

section Squares

variable {motion : Motion} {pos : Position}

theorem cell_settle_of_notMem (tick : Tick) (result : Outcome) (h : pos ∉ squares motion) :
    (tick.settle motion result).board.cell pos = tick.board.cell pos := by
  simp only [squares, List.mem_cons, List.not_mem_nil, or_false, not_or] at h
  cases result with
  | stale | blocked => rfl
  | jumpCaptured | lostTie => exact Board.cell_setCell_ne _ _ h.1
  | landed =>
    exact (Board.cell_setCell_ne _ _ h.1).trans (Board.cell_setCell_ne _ _ h.2)

/-- On its own squares an arrival does the same to boards that agree there. -/
theorem cell_settle_congr {left right : Tick} (hrows : left.board.rows = right.board.rows)
    (hbounds : ∀ pos, left.board.inBounds pos = right.board.inBounds pos)
    (hcell : ∀ pos ∈ squares motion, left.board.cell pos = right.board.cell pos)
    (result : Outcome) (h : pos ∈ squares motion) :
    (left.settle motion result).board.cell pos = (right.settle motion result).board.cell pos := by
  have hpiece : landedPiece left.board motion = landedPiece right.board motion := by
    rw [landedPiece, landedPiece, hcell motion.source (List.mem_cons_self ..),
      lastRow_congr hrows]
  cases result with
  | stale | blocked => exact hcell pos h
  | jumpCaptured | lostTie =>
    simp only [Tick.settle, Board.removePieceAt, Board.cell_setCell, hbounds, hcell pos h]
  | landed =>
    simp only [Tick.settle, landOn, Board.cell_setCell, Board.inBounds_setCell, hbounds,
      hcell pos h, hpiece]

end Squares

/-- What an arrival does is not changed by an arrival on other squares before it. -/
theorem outcome_settle_of_apart {first second : Motion} (h : Apart first second)
    (activeMotions : List Motion) (tick : Tick) (result : Outcome) :
    outcome activeMotions (tick.settle first result) second =
      outcome activeMotions tick second := by
  have hsource := cell_settle_of_notMem tick result (h.symm second.source (List.mem_cons_self ..))
  have hdestination := cell_settle_of_notMem tick result
    (h.symm second.destination (by simp [squares]))
  refine outcome_congr (by rw [hsource]) (by rw [hdestination]) fun _ ↦ ⟨rfl, ?_⟩
  have hne : second.destination ≠ first.destination := fun heq ↦
    h.symm second.destination (by simp [squares]) (by simp [squares, heq])
  simp [mem_arrived_settle, hne]

section Exchange

variable {first second : Motion} (h : Apart first second) (activeMotions : List Motion)
  (tick : Tick)

include h

/-- Arrivals that share no square leave the same board in either order. -/
theorem board_arrive_comm :
    (arrive activeMotions (arrive activeMotions tick first) second).board =
      (arrive activeMotions (arrive activeMotions tick second) first).board := by
  simp only [arrive, outcome_settle_of_apart h, outcome_settle_of_apart h.symm]
  generalize outcome activeMotions tick first = firstResult
  generalize outcome activeMotions tick second = secondResult
  apply Board.ext_cell
  · simp
  · simp
  intro pos
  by_cases hfirst : pos ∈ squares first
  · rw [cell_settle_of_notMem _ _ (h pos hfirst),
      cell_settle_congr (rows_settle tick second secondResult)
        (inBounds_settle tick second secondResult)
        (fun square hsquare ↦ cell_settle_of_notMem _ _ (h square hsquare)) _ hfirst]
  · rw [cell_settle_of_notMem _ _ hfirst]
    by_cases hsecond : pos ∈ squares second
    · rw [cell_settle_congr (rows_settle tick first firstResult)
        (inBounds_settle tick first firstResult)
        (fun square hsquare ↦ cell_settle_of_notMem _ _ (h.symm square hsquare)) _ hsecond]
    · rw [cell_settle_of_notMem _ _ hsecond, cell_settle_of_notMem _ _ hsecond,
        cell_settle_of_notMem _ _ hfirst]

/-- Arrivals that share no square can be exchanged; only the order of their resolutions differs. -/
theorem arrive_comm :
    Alike List.Perm (arrive activeMotions (arrive activeMotions tick first) second)
      (arrive activeMotions (arrive activeMotions tick second) first) := by
  refine ⟨by rw [board_arrive_comm h], fun pos ↦ ?_, ?_⟩
  · simp only [arrive, outcome_settle_of_apart h, outcome_settle_of_apart h.symm,
      mem_arrived_settle]
    tauto
  · have hemitted : ∀ {motion other : Motion} (result otherResult : Outcome), Apart motion other →
        emitted (tick.settle motion result) other otherResult =
          emitted tick other otherResult := fun result otherResult hapart ↦
      emitted_congr (by
        rw [cell_settle_of_notMem _ _ (hapart.symm _ (by simp [squares]))]) otherResult
    simp only [arrive, outcome_settle_of_apart h, outcome_settle_of_apart h.symm,
      resolutions_settle, hemitted _ _ h, hemitted _ _ h.symm, List.append_assoc]
    exact List.perm_append_comm.append_left _

end Exchange

end KongFuChess.Engine
