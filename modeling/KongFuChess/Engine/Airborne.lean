import KongFuChess.Engine.Contest

/-!
# Airborne pieces

While a jump is active, the piece that jumped cannot be displaced: its square is the source of no
move, and a landing is refused where a jump is active. The invariant says that an active jump
describes the piece on its square; its consequences are the two things that can happen to a move
which arrives there.
-/

namespace KongFuChess.Engine

open Model Realtime Rules Events

namespace GameEngine

/-- Every active jump describes the piece on its square. -/
def Airborne (engine : GameEngine) : Prop :=
  ∀ jump ∈ engine.activeMotions, jump.type = .jump →
    (engine.board.cell jump.source).Is jump.pieceType jump.pieceColor

theorem isJumpActiveAt_iff {motions : List Motion} {pos : Position} :
    isJumpActiveAt motions pos = true ↔
      ∃ jump ∈ motions, jump.type = .jump ∧ jump.source = pos := by
  simp only [isJumpActiveAt, List.any_eq_true, Bool.and_eq_true, decide_eq_true_eq]

theorem isJumpActiveAt_of_mem {motions : List Motion} {jump : Motion} (hmem : jump ∈ motions)
    (htype : jump.type = .jump) : isJumpActiveAt motions jump.source = true :=
  isJumpActiveAt_iff.2 ⟨jump, hmem, htype, rfl⟩

section Arrivals

variable {engine : GameEngine} {ms : ℤ} {jump : Motion}

/-- No arrival changes the square of an active jump. -/
theorem cell_settle_jump (hlife : engine.Lifecycle) (hjump : jump ∈ engine.activeMotions)
    (htype : jump.type = .jump) {motion : Motion} (hmem : motion ∈ engine.completing ms)
    {tick : Tick} (hon : motion.OnBoard tick.board)
    (hoccupied : (tick.board.cell jump.source).isEmpty = false) :
    (tick.settle motion (outcome engine.activeMotions tick motion)).board.cell jump.source =
      tick.board.cell jump.source := by
  have hsource : jump.source ≠ motion.source := by
    intro heq
    have hmotion := mem_completing.1 hmem
    rw [hlife.eq_of_source_eq hjump hmotion.1 heq, hmotion.2.1] at htype
    exact MotionType.noConfusion htype
  -- A landing on the square would need it to be empty or without an active jump.
  refine cell_settle_of_ne hon (fun heq ↦ absurd heq.symm hsource) fun hresult heq ↦ ?_
  have hspec := outcome_spec engine.activeMotions tick motion
  have hactive := isJumpActiveAt_of_mem hjump htype
  simp only [hresult] at hspec
  rw [heq] at hoccupied hactive
  rcases hspec.2 with hempty | ⟨-, hinactive, -⟩
  · simp [hempty] at hoccupied
  · simp [hactive] at hinactive

/-- Through all turns of a call the square of an active jump stays as the call found it. -/
theorem cell_turns_jump (hlife : engine.Lifecycle) (hair : engine.Airborne)
    (hjump : jump ∈ engine.activeMotions) (htype : jump.type = .jump) :
    (∀ past motion future, engine.completing ms = past ++ motion :: future →
      (engine.turn ms motion).board.cell jump.source =
        (engine.arrivalStart ms).board.cell jump.source) ∧
      (engine.arrivalTick ms).board.cell jump.source =
        (engine.arrivalStart ms).board.cell jump.source := by
  have hstart := Piece.Is.of_kind_eq ((sameKinds_arrivalStart engine ms).kind jump.source)
    (hair jump hjump htype)
  refine hlife.turns ms (I := fun _ tick ↦ tick.board.cell jump.source =
    (engine.arrivalStart ms).board.cell jump.source) rfl ?_
  intro past motion future hsplit hon hcell
  have hmem : motion ∈ engine.completing ms := by simp [hsplit]
  have hoccupied := hcell ▸ hstart.1
  rw [result, cell_settle_jump hlife hjump htype hmem hon hoccupied, hcell]

theorem is_turn_jump (hlife : engine.Lifecycle) (hair : engine.Airborne)
    (hjump : jump ∈ engine.activeMotions) (htype : jump.type = .jump) {motion : Motion}
    (hmem : motion ∈ engine.completing ms) :
    ((engine.turn ms motion).board.cell jump.source).Is jump.pieceType jump.pieceColor := by
  obtain ⟨past, future, hsplit⟩ := List.append_of_mem hmem
  rw [(cell_turns_jump hlife hair hjump htype).1 past motion future hsplit]
  exact Piece.Is.of_kind_eq ((sameKinds_arrivalStart engine ms).kind _) (hair jump hjump htype)

/-- After the whole call the square shows what it showed before. -/
theorem kind_advanceTime_jump (hlife : engine.Lifecycle) (hair : engine.Airborne)
    (hjump : jump ∈ engine.activeMotions) (htype : jump.type = .jump) :
    ((engine.advanceTime ms).board.cell jump.source).kind =
      (engine.board.cell jump.source).kind := by
  rw [(sameKinds_advanceTime engine ms).kind, (cell_turns_jump hlife hair hjump htype).2]
  exact (sameKinds_arrivalStart engine ms).kind _

end Arrivals

/-! ## The invariant -/

theorem Airborne.start {engine : GameEngine} (h : engine.Airborne) {motion : Motion}
    (hmotion : motion.type = .jump →
      (engine.board.cell motion.source).Is motion.pieceType motion.pieceColor)
    (event : GameEvent) : (engine.start motion event).Airborne :=
  forall_mem_start h hmotion

theorem Airborne.requestMove {engine : GameEngine} (h : engine.Airborne)
    (fromPos toPos : Position) : (engine.requestMove fromPos toPos).2.Airborne :=
  requestMove_induction (fun _ ↦ h.start (fun htype ↦ MotionType.noConfusion htype) _) h

theorem Airborne.advanceTime {engine : GameEngine} (h : engine.Airborne)
    (hlife : engine.Lifecycle) (ms : ℤ) : (engine.advanceTime ms).Airborne := by
  have hafter : (engine.afterArrivals ms).Airborne := by
    intro jump hjump htype
    rw [activeMotions_afterArrivals] at hjump
    have hactive := List.mem_of_mem_filter hjump
    refine Piece.Is.of_kind_eq ?_ (h jump hactive htype)
    rw [(sameKinds_afterArrivals engine ms).kind, (cell_turns_jump hlife h hactive htype).2]
    exact (sameKinds_arrivalStart engine ms).kind _
  have hpremoves := processPremoves_induction (P := Airborne) (fun _ _ hclear ↦ hclear)
    (fun _ fromPos toPos hrequest ↦ hrequest.requestMove fromPos toPos) hafter
    (engine.completing ms)
  intro jump hjump htype
  rw [advanceTime_eq] at hjump ⊢
  rw [activeMotions, arbiter_applyCooldown] at hjump
  exact Piece.Is.of_kind_eq ((sameKinds_applyCooldown _ _).kind _) (hpremoves jump hjump htype)

theorem Reachable.airborne {engine : GameEngine} (h : Reachable engine) : engine.Airborne := by
  have hboth : engine.Lifecycle ∧ engine.Airborne := by
    refine h.invariant (P := fun engine ↦ engine.Lifecycle ∧ engine.Airborne) ?_ ?_
    · rintro _ ⟨before, rfl⟩
      exact ⟨lifecycle_reset before, fun _ hjump ↦ absurd hjump List.not_mem_nil⟩
    · rintro engine op ⟨hlife, hair⟩
      exact ⟨hlife.step op, step_induction
        (fun _ _ _ ↦ hair.start (fun htype ↦ MotionType.noConfusion htype) _)
        (fun _ haccepted ↦ hair.start (fun _ ↦ ⟨haccepted.occupied, rfl, rfl⟩) _)
        (fun _ _ _ ↦ hair) (fun ms ↦ hair.advanceTime hlife ms) (fun _ _ ↦ hair) hair⟩
  exact hboth.2

/-! ## Moves that arrive on an airborne piece -/

/-- The capture of the piece of a move by an airborne piece. -/
def captureOf (jump motion : Motion) : JumpCaptureEvent where
  timestampMs := motion.startedAtMs + motion.durationMs
  jumpSquare := jump.source
  jumperType := jump.pieceType
  jumperColor := jump.pieceColor
  victimType := motion.pieceType
  victimColor := motion.pieceColor
  victimFrom := motion.source
  victimTo := jump.source

/-- After the call the source of the move is empty, or a piece stands there that has landed after
the turn of the move. -/
def LeftSource (engine : GameEngine) (ms : ℤ) (motion : Motion) : Prop :=
  ((engine.advanceTime ms).board.cell motion.source).isEmpty = true ∨
    ∃ mover ∈ engine.completing ms, motionLess motion mover = true ∧
      engine.result ms mover = .landed ∧ mover.destination = motion.source ∧
      ((engine.advanceTime ms).board.cell motion.source).Is (landedType engine.board mover)
        mover.pieceColor

/-- What happens to a move that completes onto the square of an active jump, at its own turn and
in the resolutions, on the board and in the log of the whole call. -/
structure HeldOff (engine : GameEngine) (ms : ℤ) (jump motion : Motion) : Prop where
  enemy : motion.Valid (engine.turn ms motion).board → motion.pieceColor ≠ jump.pieceColor →
    (∀ pos,
      (resolveMoveArrival engine.activeMotions (engine.turn ms motion) motion).board.cell pos =
      if pos = motion.source then Piece.empty else (engine.turn ms motion).board.cell pos) ∧
    (engine.arbiter.advanceTime ms engine.board).2.2.filter (fun resolution ↦
      resolutionSource resolution = motion.source) = [.jumpCapture (captureOf jump motion)] ∧
    engine.LeftSource ms motion ∧
    MoveLog.entryOf (.jumpCapture (captureOf jump motion)) ∈
      (engine.advanceTime ms).moveLog.entries.drop engine.moveLog.entries.length
  friendly : motion.pieceColor = jump.pieceColor →
    (resolveMoveArrival engine.activeMotions (engine.turn ms motion) motion).board =
      (engine.turn ms motion).board ∧
    (engine.arbiter.advanceTime ms engine.board).2.2.filter (fun resolution ↦
      resolutionSource resolution = motion.source) = []

/-- A piece that is captured by an airborne piece is gone after the call. -/
theorem Lifecycle.leftSource {engine : GameEngine} (h : engine.Lifecycle) {ms : ℤ}
    {motion : Motion} (hmem : motion ∈ engine.completing ms)
    (hresult : engine.result ms motion = .jumpCaptured) : engine.LeftSource ms motion := by
  obtain ⟨earlier, later, hsplit⟩ := List.append_of_mem hmem
  have hturns := (h.turns ms (I := fun past tick ↦ tick.board.rows = engine.board.rows ∧
    (motion ∈ past → (tick.board.cell motion.source).isEmpty = true ∨
      ∃ mover ∈ past, motionLess motion mover = true ∧ engine.result ms mover = .landed ∧
        mover.destination = motion.source ∧
        (tick.board.cell motion.source).Is (landedType engine.board mover) mover.pieceColor))
    ⟨(engine.sameKinds_arrivalStart ms).rows, fun hnil ↦ absurd hnil List.not_mem_nil⟩ ?_).2.2 hmem
  · have hsame := engine.sameKinds_advanceTime ms
    refine hturns.imp (fun hempty ↦ (hsame.isEmpty _).trans hempty) ?_
    rintro ⟨mover, hmover, hless, hlanded, hsquare, his⟩
    exact ⟨mover, hmover, hless, hlanded, hsquare, Piece.Is.of_kind_eq (hsame.kind _) his⟩
  intro past next future hsplit' hon ⟨hrows, hpast⟩
  refine ⟨(rows_settle ..).trans hrows, fun hnext ↦ ?_⟩
  rw [List.mem_append, List.mem_singleton] at hnext
  rcases hnext with hold | rfl
  · by_cases hnew : engine.result ms next = .landed ∧ motion.source = next.destination
    · -- Another piece lands on the square that the captured one has left.
      refine .inr ⟨next, by simp, h.motionLess_of_split hsplit' hold, hnew.1, hnew.2.symm, ?_⟩
      rw [hnew.1, hnew.2, cell_settle_landed hon, ← landedType_congr hrows]
      exact landedPiece_is (valid_of_landed hnew.1)
    · rcases cell_settle_or_empty hon hnew with hcell | hempty
      · rw [hcell]
        refine (hpast hold).imp_right ?_
        rintro ⟨mover, hmover, hrest⟩
        exact ⟨mover, List.mem_append_left _ hmover, hrest⟩
      · rw [hempty]
        exact .inl rfl
  · left
    rw [hresult, cell_settle hon .jumpCaptured, if_pos rfl]
    rfl

theorem heldOff {engine : GameEngine} (hlife : engine.Lifecycle) (hair : engine.Airborne) {ms : ℤ}
    {jump motion : Motion} (hjump : jump ∈ engine.activeMotions) (htype : jump.type = .jump)
    (hmem : motion ∈ engine.completing ms) (hsquare : motion.destination = jump.source) :
    engine.HeldOff ms jump motion := by
  obtain ⟨past, future, hsplit⟩ := List.append_of_mem hmem
  have hon := hlife.onBoard_turn hsplit
  have his := is_turn_jump hlife hair hjump htype hmem
  have hactive := isJumpActiveAt_of_mem hjump htype
  rw [← hsquare] at his hactive
  have hresolved := resolveMoveArrival_eq_settle engine.activeMotions (engine.turn ms motion) hon
  have hemitted := hlife.resolutions_of_source hmem
  rw [← resolutions_advanceTime, emittedAt, result] at hemitted
  constructor
  · intro hvalid henemy
    have hcaptured : outcome engine.activeMotions (engine.turn ms motion) motion =
        .jumpCaptured := by
      have hfriendly : ¬ ((engine.turn ms motion).board.cell motion.destination).isFriendly
          motion.pieceColor = true := by
        rw [Piece.isFriendly_iff, his.2.2]
        exact fun h ↦ henemy h.2.symm
      simp [outcome, hvalid, hfriendly, his.1, hactive]
    have hcapture : emitted (engine.turn ms motion) motion .jumpCaptured =
        [.jumpCapture (captureOf jump motion)] := by
      simp only [emitted, jumpCaptureOf, motionArrivalMs, captureOf]
      rw [his.2.1, his.2.2, hsquare]
    rw [hcaptured, hcapture] at hemitted
    refine ⟨?_, hemitted, hlife.leftSource hmem hcaptured, ?_⟩
    · rw [hresolved, hcaptured]
      exact fun pos ↦ cell_settle hon .jumpCaptured pos
    · have hresolution : MoveResolution.jumpCapture (captureOf jump motion) ∈
          (engine.arrivalTick ms).resolutions := by
        rw [← resolutions_advanceTime]
        apply List.mem_of_mem_filter
        rw [hemitted]
        exact List.mem_singleton_self _
      rw [moveLog_of_resolutions, MoveLog.entries_foldl_record, List.drop_left]
      exact List.mem_map_of_mem hresolution
  · intro hfriend
    have hnothing : outcome engine.activeMotions (engine.turn ms motion) motion = .stale ∨
        outcome engine.activeMotions (engine.turn ms motion) motion = .blocked := by
      have hfriendly : ((engine.turn ms motion).board.cell motion.destination).isFriendly
          motion.pieceColor = true :=
        (Piece.isFriendly_iff _ _).2 ⟨his.1, his.2.2.trans hfriend.symm⟩
      by_cases hvalid : motion.Valid (engine.turn ms motion).board
      · exact .inr (by simp [outcome, hvalid, hfriendly])
      · exact .inl (by simp [outcome, hvalid])
    rw [hresolved, hemitted]
    rcases hnothing with h | h <;> rw [h] <;> exact ⟨rfl, rfl⟩

/-- An airborne piece cannot be displaced. After every run from a reset each active jump describes
the piece on its square; a call of `advanceTime` leaves the type and colour on that square as they
were, and every move that completes onto it is held off: an enemy is gone after the call and its
capture is in the log, a friend stays where it is. -/
theorem airborne_not_displaced (before : GameEngine) (ops : List Op) :
    (before.reset.run ops).Airborne ∧
      ∀ (ms : ℕ), ∀ jump ∈ (before.reset.run ops).activeMotions, jump.type = .jump →
        (((before.reset.run ops).advanceTime ms).board.cell jump.source).kind =
            ((before.reset.run ops).board.cell jump.source).kind ∧
          ∀ motion ∈ (before.reset.run ops).completing ms, motion.destination = jump.source →
            (before.reset.run ops).HeldOff ms jump motion := by
  have hlife := Reachable.lifecycle (reachable_run before ops)
  have hair := Reachable.airborne (reachable_run before ops)
  refine ⟨hair, fun ms jump hjump htype ↦ ⟨kind_advanceTime_jump hlife hair hjump htype, ?_⟩⟩
  intro motion hmem hsquare
  exact heldOff hlife hair hjump htype hmem hsquare

end GameEngine

end KongFuChess.Engine
