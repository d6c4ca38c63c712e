import KongFuChess.Engine.Lifecycle

/-!
# The turns of one call of `advanceTime`

The arrivals of a call are a run of a small machine: its states are ticks, its operations are the
completing moves. The turn of a move is the tick that its arrival finds. `Lifecycle.turns` is the
rule that proves a property of every turn, by an invariant which may mention the moves already
resolved.

The frame of the turns says what has become of a square no resolved move started from: either it
is as the call found it, or a piece has landed on it and stands there.
-/

namespace KongFuChess.Engine

open Model Realtime Rules Events

/-- The resolution that an arrival emits. -/
def emitted (tick : Tick) (motion : Motion) : Outcome → List MoveResolution
  | .stale => []
  | .blocked => []
  | .jumpCaptured => [.jumpCapture (jumpCaptureOf tick.board motion)]
  | .lostTie => []
  | .landed => [.completedMove (completedMoveOf tick.board motion)]

/-- The square on which the resolved move started. -/
def resolutionSource : MoveResolution → Position
  | .completedMove completed => completed.fromPos
  | .jumpCapture jumpCapture => jumpCapture.victimFrom

@[simp]
theorem resolutions_settle (tick : Tick) (motion : Motion) (result : Outcome) :
    (tick.settle motion result).resolutions = tick.resolutions ++ emitted tick motion result := by
  cases result <;> simp [Tick.settle, emitted]

theorem resolutionSource_of_mem_emitted {tick : Tick} {motion : Motion} {result : Outcome}
    {resolution : MoveResolution} (h : resolution ∈ emitted tick motion result) :
    resolutionSource resolution = motion.source := by
  cases result <;> simp only [emitted, List.not_mem_nil, List.mem_singleton] at h
  all_goals
    subst h
    rfl

theorem mem_arrived_settle {tick : Tick} {motion : Motion} {result : Outcome} {pos : Position} :
    pos ∈ (tick.settle motion result).arrivedThisTick ↔
      pos ∈ tick.arrivedThisTick ∨ result = .landed ∧ pos = motion.destination := by
  cases result <;> simp [Tick.settle]

/-- The type of a piece after its move has landed. -/
def landedType (board : Board) (motion : Motion) : PieceType :=
  if motion.pieceType = .pawn ∧ motion.destination.row = lastRow board motion.pieceColor then .queen
  else motion.pieceType

theorem landedPiece_is {board : Board} {motion : Motion} (h : motion.Valid board) :
    (landedPiece board motion).Is (landedType board motion) motion.pieceColor := by
  refine ⟨landedPiece_isEmpty h.not_isEmpty, ?_, ?_⟩
  · rw [landedPiece_type, landedType, h.type, h.color]
  · rw [landedPiece_color, h.color]

/-- Promotion rows depend only on the size of the board. -/
theorem lastRow_congr {left right : Board} (h : left.rows = right.rows) :
    lastRow left = lastRow right := by
  funext color
  rw [lastRow, lastRow, h]

theorem landedType_congr {left right : Board} (h : left.rows = right.rows) (motion : Motion) :
    landedType left motion = landedType right motion := by
  rw [landedType, landedType, lastRow_congr h]

namespace GameEngine

/-- The moves that the call resolves before the given one. -/
def resolvedBefore (engine : GameEngine) (ms : ℤ) (motion : Motion) : List Motion :=
  (engine.arrivals ms).takeWhile (· ≠ motion)

/-- The tick that the arrival of a completing move finds. -/
def turn (engine : GameEngine) (ms : ℤ) (motion : Motion) : Tick :=
  (engine.resolvedBefore ms motion).foldl (resolveMoveArrival engine.activeMotions)
    (engine.arrivalStart ms)

/-- The outcome of the arrival of a completing move. -/
def result (engine : GameEngine) (ms : ℤ) (motion : Motion) : Outcome :=
  outcome engine.activeMotions (engine.turn ms motion) motion

namespace Lifecycle

variable {engine : GameEngine}

theorem eq_of_source_eq (h : engine.Lifecycle) {left right : Motion}
    (hleft : left ∈ engine.activeMotions) (hright : right ∈ engine.activeMotions)
    (heq : left.source = right.source) : left = right :=
  List.inj_on_of_nodup_map h.sources hleft hright heq

theorem nodup_completing (h : engine.Lifecycle) (ms : ℤ) :
    ((engine.completing ms).map (·.source)).Nodup :=
  h.sources.sublist (List.filter_sublist.map _)

/-- A move is not among the moves resolved before it. -/
theorem notMem_past (h : engine.Lifecycle) {ms : ℤ} {past future : List Motion} {motion : Motion}
    (hsplit : engine.completing ms = past ++ motion :: future) : motion ∉ past := by
  have hnodup := h.nodup_completing ms
  rw [hsplit, List.map_append, List.nodup_append] at hnodup
  intro hmem
  exact hnodup.2.2 motion.source (List.mem_map_of_mem hmem) motion.source (by simp) rfl

/-- The moves resolved before a move were started before it. -/
theorem motionLess_of_split (h : engine.Lifecycle) {ms : ℤ} {past future : List Motion}
    {motion : Motion} (hsplit : engine.completing ms = past ++ motion :: future) {other : Motion}
    (hother : other ∈ past) : motionLess other motion = true := by
  have hordered := h.ordered.sublist (List.filter_sublist (p := fun motion ↦
    motion.type = .move && motion.isExpired (engine.elapsedMs + ms)))
  change (engine.completing ms).Pairwise _ at hordered
  rw [hsplit, List.pairwise_append] at hordered
  exact hordered.2.2 other hother motion (List.mem_cons_self ..)

theorem notMem_future (h : engine.Lifecycle) {ms : ℤ} {past future : List Motion}
    {motion : Motion} (hsplit : engine.completing ms = past ++ motion :: future) :
    motion ∉ future := by
  have hnodup := h.nodup_completing ms
  rw [hsplit, List.map_append, List.nodup_append, List.map_cons, List.nodup_cons] at hnodup
  exact fun hmem ↦ hnodup.2.1.1 (List.mem_map_of_mem hmem)

theorem resolvedBefore_eq (h : engine.Lifecycle) {ms : ℤ} {past future : List Motion}
    {motion : Motion} (hsplit : engine.completing ms = past ++ motion :: future) :
    engine.resolvedBefore ms motion = past := by
  have hpast : ∀ other ∈ past, decide (other ≠ motion) = true := by
    intro other hother
    simp only [ne_eq, decide_eq_true_eq]
    rintro rfl
    exact h.notMem_past hsplit hother
  rw [resolvedBefore, h.arrivals_eq, hsplit, List.takeWhile_append_of_pos hpast,
    List.takeWhile_cons_of_neg (by simp), List.append_nil]

theorem turn_eq (h : engine.Lifecycle) {ms : ℤ} {past future : List Motion} {motion : Motion}
    (hsplit : engine.completing ms = past ++ motion :: future) :
    engine.turn ms motion =
      Transition.run (resolveMoveArrival engine.activeMotions) (engine.arrivalStart ms) past := by
  rw [turn, h.resolvedBefore_eq hsplit]
  rfl

/-- The rule for the turns of a call: an invariant that may mention the moves already resolved
holds at every turn and after the last one. -/
theorem turns (h : engine.Lifecycle) (ms : ℤ) {I : List Motion → Tick → Prop}
    (hstart : I [] (engine.arrivalStart ms))
    (hturn : ∀ past motion future, engine.completing ms = past ++ motion :: future →
      motion.OnBoard (engine.turn ms motion).board → I past (engine.turn ms motion) →
        I (past ++ [motion]) ((engine.turn ms motion).settle motion (engine.result ms motion))) :
    (∀ past motion future, engine.completing ms = past ++ motion :: future →
      I past (engine.turn ms motion)) ∧ I (engine.completing ms) (engine.arrivalTick ms) := by
  have hrun : ∀ {past future : List Motion}, engine.completing ms = past ++ future →
      (∀ pos, (Transition.run (resolveMoveArrival engine.activeMotions) (engine.arrivalStart ms)
        past).board.inBounds pos = (engine.arrivalStart ms).board.inBounds pos) ∧
      I past (Transition.run (resolveMoveArrival engine.activeMotions) (engine.arrivalStart ms)
        past) := by
    apply Transition.run_induction (P := fun past tick ↦
      (∀ pos, tick.board.inBounds pos = (engine.arrivalStart ms).board.inBounds pos) ∧ I past tick)
    · exact ⟨fun _ ↦ rfl, hstart⟩
    · rintro past motion future hsplit ⟨hbounds, hI⟩
      have hmem : motion ∈ engine.completing ms := by simp [hsplit]
      have hon := (h.onBoard_decreased hmem).congr hbounds
      rw [resolveMoveArrival_eq_settle _ _ hon]
      rw [← h.turn_eq hsplit] at hbounds hI hon ⊢
      exact ⟨fun pos ↦ (inBounds_settle ..).trans (hbounds pos), hturn past motion future hsplit
        hon hI⟩
  constructor
  · intro past motion future hsplit
    rw [h.turn_eq hsplit]
    exact (hrun hsplit).2
  · rw [arrivalTick, h.arrivals_eq]
    exact (hrun (List.append_nil _).symm).2

theorem inBounds_turn (h : engine.Lifecycle) {ms : ℤ} {past future : List Motion}
    {motion : Motion} (hsplit : engine.completing ms = past ++ motion :: future) (pos : Position) :
    (engine.turn ms motion).board.inBounds pos = engine.board.inBounds pos :=
  (h.turns ms (I := fun _ tick ↦ tick.board.inBounds pos = engine.board.inBounds pos)
    ((sameKinds_decreaseAllCooldowns engine.board ms).inBounds pos)
    fun _ _ _ _ _ hI ↦ (inBounds_settle ..).trans hI).1 past motion future hsplit

theorem onBoard_turn (h : engine.Lifecycle) {ms : ℤ} {past future : List Motion}
    {motion : Motion} (hsplit : engine.completing ms = past ++ motion :: future) :
    motion.OnBoard (engine.turn ms motion).board := by
  have hmem : motion ∈ engine.completing ms := by simp [hsplit]
  exact (h.onBoard_completing hmem).congr (h.inBounds_turn hsplit)

end Lifecycle

/-! ## The frame of the turns -/

theorem sameKinds_arrivalStart (engine : GameEngine) (ms : ℤ) :
    SameKinds (engine.arrivalStart ms).board engine.board :=
  sameKinds_decreaseAllCooldowns engine.board ms

/-- None of the resolved moves has taken a piece away from the square. -/
def Unvacated (engine : GameEngine) (ms : ℤ) (past : List Motion) (pos : Position) : Prop :=
  ∀ motion ∈ past, motion.source = pos →
    engine.result ms motion = .stale ∨ engine.result ms motion = .blocked

instance (engine : GameEngine) (ms : ℤ) (past : List Motion) (pos : Position) :
    Decidable (engine.Unvacated ms past pos) :=
  inferInstanceAs (Decidable (∀ motion ∈ past, motion.source = pos → _))

theorem Unvacated.mono {engine : GameEngine} {ms : ℤ} {past later : List Motion} {pos : Position}
    (h : engine.Unvacated ms later pos) (hsub : ∀ motion ∈ past, motion ∈ later) :
    engine.Unvacated ms past pos :=
  fun motion hmem ↦ h motion (hsub motion hmem)

/-- The source of a running motion is not vacated before the turn of that motion. -/
theorem Lifecycle.unvacated {engine : GameEngine} (h : engine.Lifecycle) {ms : ℤ}
    {past future : List Motion} (hsplit : engine.completing ms = past ++ future) {motion : Motion}
    (hactive : motion ∈ engine.activeMotions) (hpast : motion ∉ past) :
    engine.Unvacated ms past motion.source := by
  intro other hother heq
  have hcompleting : other ∈ engine.completing ms := by
    rw [hsplit]
    exact List.mem_append_left _ hother
  rw [h.eq_of_source_eq (mem_completing.1 hcompleting).1 hactive heq] at hother
  exact absurd hother hpast

/-- What the turns of a call have made of the board that it found. -/
structure Frame (engine : GameEngine) (ms : ℤ) (past : List Motion) (tick : Tick) : Prop where
  rows : tick.board.rows = engine.board.rows
  /-- Without an arrival a square is as the call found it, or empty. -/
  unarrived : ∀ pos, pos ∉ tick.arrivedThisTick →
    tick.board.cell pos = (engine.arrivalStart ms).board.cell pos ∨
      tick.board.cell pos = Piece.empty
  untouched : ∀ pos, engine.Unvacated ms past pos → pos ∉ tick.arrivedThisTick →
    tick.board.cell pos = (engine.arrivalStart ms).board.cell pos
  /-- After an arrival a square is empty, or the last piece to arrive stands there. -/
  arrived : ∀ pos, pos ∈ tick.arrivedThisTick →
    tick.board.cell pos = Piece.empty ∨
      ∃ mover ∈ past, engine.result ms mover = .landed ∧ mover.destination = pos ∧
        (tick.board.cell pos).Is (landedType engine.board mover) mover.pieceColor
  /-- On a square that no piece leaves, at most one piece arrives, and it meets the occupant that
  the call found. -/
  captured : ∀ pos, engine.Unvacated ms past pos → pos ∈ tick.arrivedThisTick →
    ∃ mover ∈ past, engine.result ms mover = .landed ∧ mover.destination = pos ∧
      (engine.turn ms mover).board.cell pos = (engine.arrivalStart ms).board.cell pos ∧
      (tick.board.cell pos).Is (landedType engine.board mover) mover.pieceColor

theorem frame_start (engine : GameEngine) (ms : ℤ) :
    engine.Frame ms [] (engine.arrivalStart ms) where
  rows := (engine.sameKinds_arrivalStart ms).rows
  unarrived := fun _ _ ↦ .inl rfl
  untouched := fun _ _ _ ↦ rfl
  arrived := fun _ hmem ↦ absurd hmem List.not_mem_nil
  captured := fun _ _ hmem ↦ absurd hmem List.not_mem_nil

theorem result_spec (engine : GameEngine) (ms : ℤ) (motion : Motion) :
    Occurs engine.activeMotions (engine.turn ms motion) motion (engine.result ms motion) :=
  outcome_spec ..

theorem valid_of_ne_stale {engine : GameEngine} {ms : ℤ} {motion : Motion}
    (h : engine.result ms motion ≠ .stale) : motion.Valid (engine.turn ms motion).board := by
  have hspec := engine.result_spec ms motion
  cases hresult : engine.result ms motion with
  | stale => exact absurd hresult h
  | blocked | jumpCaptured | lostTie | landed =>
    rw [hresult] at hspec
    exact hspec.1

theorem valid_of_landed {engine : GameEngine} {ms : ℤ} {motion : Motion}
    (h : engine.result ms motion = .landed) : motion.Valid (engine.turn ms motion).board :=
  valid_of_ne_stale (by simp [h])

/-- A landing on an occupied square takes it from an enemy, before any other arrival there. -/
theorem enemy_of_landed {engine : GameEngine} {ms : ℤ} {motion : Motion}
    (h : engine.result ms motion = .landed)
    (hfull : ((engine.turn ms motion).board.cell motion.destination).isEmpty = false) :
    Enemy ((engine.turn ms motion).board.cell motion.destination) motion.pieceColor ∧
      motion.destination ∉ (engine.turn ms motion).arrivedThisTick := by
  have hspec := engine.result_spec ms motion
  rw [h] at hspec
  obtain ⟨henemy, -, harrived⟩ := hspec.2.resolve_left (by simp [hfull])
  exact ⟨henemy, harrived⟩

/-- A move lands if nothing stands against it at its turn. -/
theorem landed_of_unopposed {engine : GameEngine} {ms : ℤ} {motion : Motion}
    (hvalid : motion.Valid (engine.turn ms motion).board)
    (hfriendly : ((engine.turn ms motion).board.cell motion.destination).isFriendly
      motion.pieceColor = false)
    (hjump : isJumpActiveAt engine.activeMotions motion.destination = false)
    (harrived : motion.destination ∉ (engine.turn ms motion).arrivedThisTick) :
    engine.result ms motion = .landed := by
  have hspec := engine.result_spec ms motion
  cases hresult : engine.result ms motion with
  | landed => rfl
  | stale =>
    rw [hresult] at hspec
    exact absurd hvalid hspec
  | blocked =>
    rw [hresult] at hspec
    exact absurd (hspec.2.symm.trans hfriendly) Bool.true_eq_false.mp
  | jumpCaptured =>
    rw [hresult] at hspec
    exact absurd (hspec.2.2.symm.trans hjump) Bool.true_eq_false.mp
  | lostTie =>
    rw [hresult] at hspec
    exact absurd hspec.2.2.2 harrived

theorem Frame.turn {engine : GameEngine} {ms : ℤ} {past : List Motion} {motion : Motion}
    (h : engine.Frame ms past (engine.turn ms motion))
    (hon : motion.OnBoard (engine.turn ms motion).board) :
    engine.Frame ms (past ++ [motion])
      ((engine.turn ms motion).settle motion (engine.result ms motion)) := by
  have hmono : ∀ {pos}, engine.Unvacated ms (past ++ [motion]) pos →
      engine.Unvacated ms past pos ∧ (motion.source = pos →
        engine.result ms motion = .stale ∨ engine.result ms motion = .blocked) :=
    fun hunvacated ↦ ⟨hunvacated.mono fun _ hmem ↦ List.mem_append_left _ hmem,
      hunvacated motion (by simp)⟩
  have hlanded : ∀ {pos}, engine.result ms motion = .landed → pos = motion.destination →
      (((engine.turn ms motion).settle motion (engine.result ms motion)).board.cell pos).Is
        (landedType engine.board motion) motion.pieceColor := by
    rintro pos hresult rfl
    rw [hresult, cell_settle_landed hon, ← landedType_congr h.rows]
    exact landedPiece_is (valid_of_landed hresult)
  refine
    { rows := (rows_settle ..).trans h.rows
      unarrived := ?_
      untouched := ?_
      arrived := ?_
      captured := ?_ }
  · intro pos harrived
    rw [mem_arrived_settle, not_or] at harrived
    rcases cell_settle_or_empty hon harrived.2 with hcell | hempty
    · rw [hcell]
      exact h.unarrived pos harrived.1
    · exact .inr hempty
  · intro pos hunvacated harrived
    rw [mem_arrived_settle, not_or] at harrived
    obtain ⟨hpast, hsource⟩ := hmono hunvacated
    rw [cell_settle_of_ne hon hsource fun hresult heq ↦ harrived.2 ⟨hresult, heq⟩]
    exact h.untouched pos hpast harrived.1
  · intro pos harrived
    rw [mem_arrived_settle] at harrived
    by_cases hnew : engine.result ms motion = .landed ∧ pos = motion.destination
    · exact .inr ⟨motion, by simp, hnew.1, hnew.2.symm, hlanded hnew.1 hnew.2⟩
    rcases cell_settle_or_empty hon hnew with hcell | hempty
    · rw [hcell]
      apply (h.arrived pos (harrived.resolve_right hnew)).imp_right
      rintro ⟨mover, hmem, hmover⟩
      exact ⟨mover, List.mem_append_left _ hmem, hmover⟩
    · exact .inl hempty
  · intro pos hunvacated harrived
    rw [mem_arrived_settle] at harrived
    obtain ⟨hpast, hsource⟩ := hmono hunvacated
    by_cases hnew : engine.result ms motion = .landed ∧ pos = motion.destination
    · obtain ⟨hresult, rfl⟩ := hnew
      refine ⟨motion, by simp, hresult, rfl, ?_, hlanded hresult rfl⟩
      -- A second arrival on the square would be blocked or lose the tie.
      apply h.untouched _ hpast
      intro hmem
      obtain ⟨_, _, _, _, _, his⟩ := h.captured _ hpast hmem
      exact (enemy_of_landed hresult his.1).2 hmem
    · obtain ⟨mover, hmem, hmover⟩ := h.captured pos hpast (harrived.resolve_right hnew)
      rw [cell_settle_of_ne hon hsource fun hresult heq ↦ hnew ⟨hresult, heq⟩]
      exact ⟨mover, List.mem_append_left _ hmem, hmover⟩

/-- A square from which no piece is taken away is not emptied. -/
theorem Frame.occupied {engine : GameEngine} {ms : ℤ} {past : List Motion} {tick : Tick}
    (h : engine.Frame ms past tick) {pos : Position} (hunvacated : engine.Unvacated ms past pos)
    (hstart : ((engine.arrivalStart ms).board.cell pos).isEmpty = false) :
    (tick.board.cell pos).isEmpty = false := by
  by_cases harrived : pos ∈ tick.arrivedThisTick
  · obtain ⟨_, _, _, _, _, his⟩ := h.captured pos hunvacated harrived
    exact his.1
  · rw [h.untouched pos hunvacated harrived]
    exact hstart

theorem Lifecycle.frame_turn {engine : GameEngine} (h : engine.Lifecycle) {ms : ℤ}
    {past future : List Motion} {motion : Motion}
    (hsplit : engine.completing ms = past ++ motion :: future) :
    engine.Frame ms past (engine.turn ms motion) :=
  (h.turns ms (frame_start engine ms) fun _ _ _ _ hon hframe ↦ hframe.turn hon).1 past motion future
    hsplit

theorem Lifecycle.frame_arrivalTick {engine : GameEngine} (h : engine.Lifecycle) (ms : ℤ) :
    engine.Frame ms (engine.completing ms) (engine.arrivalTick ms) :=
  (h.turns ms (frame_start engine ms) fun _ _ _ _ hon hframe ↦ hframe.turn hon).2

/-- A square that no piece leaves or reaches looks the same after the call. -/
theorem Lifecycle.kind_of_untouched {engine : GameEngine} (h : engine.Lifecycle) {ms : ℤ}
    {pos : Position} (hunvacated : engine.Unvacated ms (engine.completing ms) pos)
    (hunarrived : pos ∉ (engine.arrivalTick ms).arrivedThisTick) :
    ((engine.advanceTime ms).board.cell pos).kind = (engine.board.cell pos).kind := by
  calc
    _ = ((engine.arrivalTick ms).board.cell pos).kind :=
      (engine.sameKinds_advanceTime ms).kind pos
    _ = ((engine.arrivalStart ms).board.cell pos).kind := by
      rw [(h.frame_arrivalTick ms).untouched pos hunvacated hunarrived]
    _ = (engine.board.cell pos).kind := (engine.sameKinds_arrivalStart ms).kind pos

/-- The squares reached are the destinations of the moves that have landed. -/
theorem Lifecycle.mem_arrived {engine : GameEngine} (h : engine.Lifecycle) (ms : ℤ) :
    (∀ past motion future, engine.completing ms = past ++ motion :: future → ∀ pos,
      pos ∈ (engine.turn ms motion).arrivedThisTick ↔
        ∃ mover ∈ past, engine.result ms mover = .landed ∧ mover.destination = pos) ∧
      ∀ pos, pos ∈ (engine.arrivalTick ms).arrivedThisTick ↔
        ∃ mover ∈ engine.completing ms, engine.result ms mover = .landed ∧
          mover.destination = pos := by
  refine h.turns ms (I := fun past tick ↦ ∀ pos, pos ∈ tick.arrivedThisTick ↔
    ∃ mover ∈ past, engine.result ms mover = .landed ∧ mover.destination = pos) ?_ ?_
  · intro pos
    simp [arrivalStart]
  · intro past motion future _ _ hpast pos
    rw [mem_arrived_settle, hpast]
    simp only [List.mem_append, List.mem_singleton, or_and_right, exists_or, exists_eq_left,
      eq_comm (a := pos)]

/-- A square that has been reached by the turn of a move stays reached. -/
theorem Lifecycle.mem_arrived_of_turn {engine : GameEngine} (h : engine.Lifecycle) {ms : ℤ}
    {past future : List Motion} {motion : Motion}
    (hsplit : engine.completing ms = past ++ motion :: future) {pos : Position}
    (harrived : pos ∈ (engine.turn ms motion).arrivedThisTick) :
    pos ∈ (engine.arrivalTick ms).arrivedThisTick := by
  obtain ⟨mover, hmover, hresult, hsquare⟩ :=
    ((h.mem_arrived ms).1 past motion future hsplit pos).1 harrived
  exact ((h.mem_arrived ms).2 pos).2
    ⟨mover, mem_completing_of_past hsplit hmover, hresult, hsquare⟩

/-- Every square reached in a call is the destination of a completing move. -/
theorem Lifecycle.exists_of_arrived {engine : GameEngine} (h : engine.Lifecycle) {ms : ℤ}
    {pos : Position} (hpos : pos ∈ (engine.arrivalTick ms).arrivedThisTick) :
    ∃ mover ∈ engine.completing ms, mover.destination = pos := by
  obtain ⟨mover, hmem, -, hsquare⟩ := ((h.mem_arrived ms).2 pos).1 hpos
  exact ⟨mover, hmem, hsquare⟩

/-! ## The resolutions of a call -/

/-- The resolutions emitted for a completing move. -/
def emittedAt (engine : GameEngine) (ms : ℤ) (motion : Motion) : List MoveResolution :=
  emitted (engine.turn ms motion) motion (engine.result ms motion)

/-- The resolutions of a call are those of its turns, one turn after another. -/
theorem Lifecycle.resolutions_eq {engine : GameEngine} (h : engine.Lifecycle) (ms : ℤ) :
    (engine.arrivalTick ms).resolutions =
      (engine.completing ms).flatMap (engine.emittedAt ms) := by
  refine (h.turns ms (I := fun past tick ↦ tick.resolutions = past.flatMap (engine.emittedAt ms))
    rfl ?_).2
  intro past motion future _ _ hpast
  rw [resolutions_settle, hpast, List.flatMap_append]
  simp [emittedAt]

/-- The resolutions that start from the source of a completing move are its own. -/
theorem Lifecycle.resolutions_of_source {engine : GameEngine} (h : engine.Lifecycle) {ms : ℤ}
    {motion : Motion} (hmem : motion ∈ engine.completing ms) :
    (engine.arrivalTick ms).resolutions.filter (fun resolution ↦
      resolutionSource resolution = motion.source) = engine.emittedAt ms motion := by
  obtain ⟨past, future, hsplit⟩ := List.append_of_mem hmem
  have hself : (engine.emittedAt ms motion).filter (fun resolution ↦
      resolutionSource resolution = motion.source) = engine.emittedAt ms motion :=
    List.filter_eq_self.2 fun resolution hresolution ↦
      decide_eq_true (resolutionSource_of_mem_emitted hresolution)
  have hother : ∀ others : List Motion, (∀ other ∈ others, other ∈ engine.completing ms) →
      motion ∉ others → (others.flatMap (engine.emittedAt ms)).filter (fun resolution ↦
        resolutionSource resolution = motion.source) = [] := by
    intro others hothers hnot
    simp only [List.filter_eq_nil_iff, List.mem_flatMap, decide_eq_true_eq]
    rintro resolution ⟨other, hother, hresolution⟩ heq
    rw [resolutionSource_of_mem_emitted hresolution] at heq
    have hsame := h.eq_of_source_eq (mem_completing.1 (hothers other hother)).1
      (mem_completing.1 hmem).1 heq
    exact hnot (hsame ▸ hother)
  rw [h.resolutions_eq, hsplit, List.flatMap_append, List.flatMap_cons, List.filter_append,
    List.filter_append, hself, hother past (fun _ hother ↦ by simp [hsplit, hother])
      (h.notMem_past hsplit), hother future (fun _ hother ↦ by simp [hsplit, hother])
      (h.notMem_future hsplit), List.nil_append, List.append_nil]

end GameEngine

end KongFuChess.Engine
