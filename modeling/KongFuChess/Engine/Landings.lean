import KongFuChess.Engine.Airborne
import KongFuChess.Engine.Contest
import KongFuChess.Engine.Identity

/-!
# The pieces that land and stay

Within one call a square can be emptied and taken again, so a landing does not say yet which piece
stands on the square after the call. `Stays` says that the piece of a landed move is still the one
there. A square reached by an arrival and occupied at the end holds such a piece; an occupied square
that no arrival has reached still holds the piece that the call found.

The engine asks whether a square is busy, not whether a piece is. A piece that captures on the
source of a running move therefore inherits its motion: it can do nothing until that motion expires.
This is the only way in which a landed piece is kept from acting.
-/

namespace KongFuChess.Engine

open Model Realtime Rules Events

namespace Occupancy

theorem SameAt.refl (occupancy : Occupancy) (pos : Position) : occupancy.SameAt occupancy pos :=
  ⟨rfl, rfl⟩

end Occupancy

namespace GameEngine

/-- The engine with every piece named by the square on which the call finds it. -/
def atCall (engine : GameEngine) : Tracked where
  engine := engine
  occupancy := .initial
  startedWith := fun _ ↦ .initial

/-- The occupants of the squares after the call. -/
def occupantsAfter (engine : GameEngine) (ms : ℤ) : Occupancy :=
  engine.atCall.occupancyThrough ms (engine.arrivals ms)

/-- The occupants of the squares when the move has just landed. -/
def occupantsLanded (engine : GameEngine) (ms : ℤ) (motion : Motion) : Occupancy :=
  (engine.atCall.occupancyAt ms motion).settle motion .landed

/-- The move lands, and its piece stands on the destination when the call is done. -/
structure Stays (engine : GameEngine) (ms : ℤ) (motion : Motion) : Prop where
  landed : engine.result ms motion = .landed
  standing : (engine.occupantsAfter ms).SameAt (engine.occupantsLanded ms motion)
    motion.destination

instance (engine : GameEngine) (ms : ℤ) (motion : Motion) : Decidable (engine.Stays ms motion) :=
  decidable_of_iff (engine.result ms motion = .landed ∧
      (engine.occupantsAfter ms).SameAt (engine.occupantsLanded ms motion) motion.destination)
    ⟨fun ⟨landed, standing⟩ ↦ ⟨landed, standing⟩, fun h ↦ ⟨h.landed, h.standing⟩⟩

theorem occupancyThrough_concat (engine : GameEngine) (ms : ℤ) (past : List Motion)
    (motion : Motion) :
    engine.atCall.occupancyThrough ms (past ++ [motion]) =
      (engine.atCall.occupancyThrough ms past).settle motion (engine.result ms motion) := by
  rw [Tracked.occupancyThrough, List.foldl_append]
  rfl

variable {engine : GameEngine} {ms : ℤ}

theorem Lifecycle.occupantsLanded_eq (h : engine.Lifecycle) {past future : List Motion}
    {motion : Motion} (hsplit : engine.completing ms = past ++ motion :: future)
    (hresult : engine.result ms motion = .landed) :
    engine.atCall.occupancyThrough ms (past ++ [motion]) = engine.occupantsLanded ms motion := by
  rw [occupantsLanded, Tracked.occupancyAt]
  change _ = (engine.atCall.occupancyThrough ms (engine.resolvedBefore ms motion)).settle motion _
  rw [h.resolvedBefore_eq hsplit, occupancyThrough_concat, hresult]

/-- The rule for single pieces: what holds of every piece that the call finds, and of a piece that
lands if it held of it on the source, holds of every piece that the arrivals leave. -/
theorem Lifecycle.pieces_induction (h : engine.Lifecycle)
    {I : List Motion → Position → Piece → Prop}
    (hstart : ∀ pos, ((engine.arrivalStart ms).board.cell pos).isEmpty = false →
      I [] pos ((engine.arrivalStart ms).board.cell pos))
    (hkept : ∀ past motion origin piece, I past origin piece → I (past ++ [motion]) origin piece)
    (hlanded : ∀ past motion future, engine.completing ms = past ++ motion :: future →
      engine.result ms motion = .landed →
      I past ((engine.occupantsLanded ms motion).origin motion.destination)
          ((engine.turn ms motion).board.cell motion.source) →
        I (past ++ [motion]) ((engine.occupantsLanded ms motion).origin motion.destination)
          (landedPiece (engine.turn ms motion).board motion))
    {pos : Position} (hfull : ((engine.arrivalTick ms).board.cell pos).isEmpty = false) :
    I (engine.completing ms) ((engine.occupantsAfter ms).origin pos)
      ((engine.arrivalTick ms).board.cell pos) := by
  rw [occupantsAfter, h.arrivals_eq]
  refine (h.turns ms (I := fun past tick ↦ ∀ pos, (tick.board.cell pos).isEmpty = false →
    I past ((engine.atCall.occupancyThrough ms past).origin pos) (tick.board.cell pos))
    hstart ?_).2 pos hfull
  intro past motion future hsplit hon hpast pos hfull
  have hsource := kept_of_full hon hfull
  by_cases hnew : engine.result ms motion = .landed ∧ pos = motion.destination
  · obtain ⟨hresult, rfl⟩ := hnew
    have hmover := hpast _ (valid_of_landed hresult).not_isEmpty
    have horigin := h.occupantsLanded_eq hsplit hresult
    rw [horigin, hresult, cell_settle_landed hon]
    apply hlanded past motion future hsplit hresult
    rw [← horigin, occupancyThrough_concat, hresult]
    simp only [Occupancy.settle, if_true]
    exact hmover
  · have hdestination : engine.result ms motion = .landed → pos ≠ motion.destination :=
      fun hresult heq ↦ hnew ⟨hresult, heq⟩
    have hsame := (engine.atCall.occupancyThrough ms past).sameAt_settle motion hsource hdestination
    rw [cell_settle_of_ne hon hsource hdestination] at hfull ⊢
    rw [occupancyThrough_concat, hsame.1]
    exact hkept past motion _ _ (hpast pos hfull)

/-- An occupied square that an arrival of the call has reached holds the piece of a landed move. -/
theorem Lifecycle.exists_stays (h : engine.Lifecycle) {pos : Position}
    (harrived : pos ∈ (engine.arrivalTick ms).arrivedThisTick)
    (hfull : ((engine.arrivalTick ms).board.cell pos).isEmpty = false) :
    ∃ motion ∈ engine.completing ms, motion.destination = pos ∧ engine.Stays ms motion := by
  have hturns := (h.turns ms (I := fun past tick ↦ ∀ pos ∈ tick.arrivedThisTick,
    (tick.board.cell pos).isEmpty = false → ∃ mover ∈ past, mover.destination = pos ∧
      engine.result ms mover = .landed ∧ (engine.atCall.occupancyThrough ms past).SameAt
        (engine.occupantsLanded ms mover) pos)
    (fun _ hmem ↦ absurd hmem List.not_mem_nil) ?_).2
  · obtain ⟨mover, hmem, hsquare, hresult, hsame⟩ := hturns pos harrived hfull
    refine ⟨mover, hmem, hsquare, hresult, ?_⟩
    rwa [hsquare, occupantsAfter, h.arrivals_eq]
  · intro past motion future hsplit hon hpast pos harrived hfull
    rw [mem_arrived_settle] at harrived
    by_cases hnew : engine.result ms motion = .landed ∧ pos = motion.destination
    · refine ⟨motion, by simp, hnew.2.symm, hnew.1, ?_⟩
      rw [h.occupantsLanded_eq hsplit hnew.1]
      exact .refl _ _
    have hsource := kept_of_full hon hfull
    have hdestination : engine.result ms motion = .landed → pos ≠ motion.destination :=
      fun hresult heq ↦ hnew ⟨hresult, heq⟩
    rw [cell_settle_of_ne hon hsource hdestination] at hfull
    obtain ⟨mover, hmem, hsquare, hresult, hsame⟩ :=
      hpast pos (harrived.resolve_right hnew) hfull
    refine ⟨mover, List.mem_append_left _ hmem, hsquare, hresult, ?_⟩
    rw [occupancyThrough_concat]
    exact (Occupancy.sameAt_settle _ _ hsource hdestination).trans hsame

/-- No piece has left an occupied square that no arrival of the call has reached. -/
theorem Lifecycle.unvacated_of_unarrived (h : engine.Lifecycle) {pos : Position}
    (harrived : pos ∉ (engine.arrivalTick ms).arrivedThisTick)
    (hfull : ((engine.arrivalTick ms).board.cell pos).isEmpty = false) :
    engine.Unvacated ms (engine.completing ms) pos := by
  refine (h.turns ms (I := fun past tick ↦ ∀ pos, pos ∉ tick.arrivedThisTick →
    (tick.board.cell pos).isEmpty = false → engine.Unvacated ms past pos)
    (fun _ _ _ _ hmem ↦ absurd hmem List.not_mem_nil) ?_).2 pos harrived hfull
  intro past motion future hsplit hon hpast pos harrived hfull mover hmem hsource
  rw [mem_arrived_settle, not_or] at harrived
  rw [List.mem_append, List.mem_singleton] at hmem
  have hkept := kept_of_full hon hfull
  rcases hmem with hold | rfl
  · rw [cell_settle_of_ne hon hkept fun hresult heq ↦ harrived.2 ⟨hresult, heq⟩] at hfull
    exact hpast pos harrived.1 hfull mover hold hsource
  · exact hkept hsource

/-- A piece that lands stays if no later move takes it away. -/
theorem Lifecycle.stays_of_stopped (h : engine.Lifecycle) {motion : Motion}
    (hmem : motion ∈ engine.completing ms) (hresult : engine.result ms motion = .landed)
    (hleavers : ∀ leaver ∈ engine.completing ms, leaver.source = motion.destination →
      motionLess motion leaver = true →
        engine.result ms leaver = .stale ∨ engine.result ms leaver = .blocked) :
    engine.Stays ms motion := by
  refine ⟨hresult, ?_⟩
  rw [occupantsAfter, h.arrivals_eq]
  refine ((h.turns ms (I := fun past tick ↦ motion ∈ past →
    motion.destination ∈ tick.arrivedThisTick ∧
      (tick.board.cell motion.destination).isEmpty = false ∧
        (engine.atCall.occupancyThrough ms past).SameAt (engine.occupantsLanded ms motion)
          motion.destination) (fun hnil ↦ absurd hnil List.not_mem_nil) ?_).2 hmem).2.2
  intro past next future hsplit hon hpast hnext
  rw [List.mem_append, List.mem_singleton] at hnext
  rw [mem_arrived_settle]
  rcases hnext with hold | rfl
  · obtain ⟨harrived, hfull, hsame⟩ := hpast hold
    have hmem' : next ∈ engine.completing ms := by simp [hsplit]
    have hless : motionLess motion next = true := h.motionLess_of_split hsplit hold
    have hsource := fun heq ↦ hleavers next hmem' heq hless
    have hdestination : engine.result ms next = .landed →
        motion.destination ≠ next.destination := by
      intro hlanded heq
      rw [heq] at harrived hfull
      exact (enemy_of_landed hlanded hfull).2 harrived
    refine ⟨.inl harrived, ?_, ?_⟩
    · rwa [cell_settle_of_ne hon hsource hdestination]
    · rw [occupancyThrough_concat]
      exact (Occupancy.sameAt_settle _ _ hsource hdestination).trans hsame
  · refine ⟨.inr ⟨hresult, rfl⟩, ?_, ?_⟩
    · rw [hresult, cell_settle_landed hon]
      exact landedPiece_isEmpty (valid_of_landed hresult).not_isEmpty
    · rw [h.occupantsLanded_eq hsplit hresult]
      exact .refl _ _

/-! ## What a call finds -/

/-- The game is over, or one of the completing moves ends it. -/
def EndsGame (engine : GameEngine) (ms : ℤ) : Prop :=
  engine.isGameOver = true ∨
    ∃ motion ∈ engine.completing ms, (engine.verdict motion).isSome = true

instance (engine : GameEngine) (ms : ℤ) : Decidable (engine.EndsGame ms) :=
  inferInstanceAs (Decidable (_ ∨ ∃ motion ∈ engine.completing ms, _))

theorem isGameOver_advanceTime_iff (engine : GameEngine) (ms : ℤ) :
    (engine.advanceTime ms).isGameOver = true ↔ engine.EndsGame ms := by
  rw [isGameOver_advanceTime, checkGameOver_eq, EndsGame]
  cases hover : engine.isGameOver with
  | true => simp [hover]
  | false =>
    rw [if_neg Bool.false_ne_true]
    cases hverdict : (engine.completing ms).findSome? engine.verdict with
    | none =>
      rw [List.findSome?_eq_none_iff] at hverdict
      refine iff_of_false (by simp [hover]) ?_
      rintro (hsame | ⟨motion, hmem, hsome⟩)
      · exact Bool.false_ne_true hsame
      · rw [hverdict motion hmem] at hsome
        exact Bool.false_ne_true hsome
    | some winnerColor =>
      obtain ⟨motion, hmem, hsome⟩ := List.exists_of_findSome?_eq_some hverdict
      exact iff_of_true rfl (.inr ⟨motion, hmem, by rw [hsome]; rfl⟩)

/-- An enemy stands on the source of the move, and the captor, which is resolved before it, goes
there with a piece of the same kind as the one that started the move. -/
structure Restores (engine : GameEngine) (captor motion : Motion) : Prop where
  before : motionLess captor motion = true
  captured : Enemy (engine.board.cell motion.source) motion.pieceColor
  square : captor.destination = motion.source
  color : captor.pieceColor = motion.pieceColor
  type : landedType engine.board captor = motion.pieceType

instance (engine : GameEngine) (captor motion : Motion) :
    Decidable (engine.Restores captor motion) :=
  decidable_of_iff (motionLess captor motion = true ∧
      Enemy (engine.board.cell motion.source) motion.pieceColor ∧
      captor.destination = motion.source ∧ captor.pieceColor = motion.pieceColor ∧
      landedType engine.board captor = motion.pieceType)
    ⟨fun ⟨before, captured, square, color, type⟩ ↦ ⟨before, captured, square, color, type⟩,
      fun h ↦ ⟨h.before, h.captured, h.square, h.color, h.type⟩⟩

/-- A piece of the kind that started the move stands on its source, or comes there before its
turn. -/
def MayDepart (engine : GameEngine) (ms : ℤ) (motion : Motion) : Prop :=
  motion.Valid engine.board ∨ ∃ captor ∈ engine.completing ms, engine.Restores captor motion

instance (engine : GameEngine) (ms : ℤ) (motion : Motion) :
    Decidable (engine.MayDepart ms motion) :=
  inferInstanceAs (Decidable (motion.Valid engine.board ∨ ∃ captor ∈ engine.completing ms, _))

/-- The move may find its piece, nobody is airborne on its destination, and a friend who stands
there may leave first. -/
structure MayLand (engine : GameEngine) (ms : ℤ) (motion : Motion) : Prop where
  departs : engine.MayDepart ms motion
  grounded : isJumpActiveAt engine.activeMotions motion.destination = false
  free : (engine.board.cell motion.destination).isFriendly motion.pieceColor = true →
    ∃ leaver ∈ engine.completing ms, leaver.source = motion.destination ∧
      motionLess leaver motion = true

instance (engine : GameEngine) (ms : ℤ) (motion : Motion) :
    Decidable (engine.MayLand ms motion) :=
  decidable_of_iff (engine.MayDepart ms motion ∧
      isJumpActiveAt engine.activeMotions motion.destination = false ∧
      ((engine.board.cell motion.destination).isFriendly motion.pieceColor = true →
        ∃ leaver ∈ engine.completing ms, leaver.source = motion.destination ∧
          motionLess leaver motion = true))
    ⟨fun ⟨departs, grounded, free⟩ ↦ ⟨departs, grounded, free⟩,
      fun h ↦ ⟨h.departs, h.grounded, h.free⟩⟩

/-- No completing move goes to the source of a completing move. -/
def SourcesUnreached (engine : GameEngine) (ms : ℤ) : Prop :=
  ∀ motion ∈ engine.completing ms, ∀ other ∈ engine.completing ms,
    other.destination ≠ motion.source

instance (engine : GameEngine) (ms : ℤ) : Decidable (engine.SourcesUnreached ms) :=
  inferInstanceAs (Decidable (∀ motion ∈ engine.completing ms, ∀ other ∈ engine.completing ms, _))

/-- A piece that has come to the source of a running move since the call began, and fits the move,
restores it. -/
theorem Lifecycle.exists_restores (h : engine.Lifecycle) (hoccupied : engine.Occupied)
    {past future : List Motion} {motion : Motion}
    (hsplit : engine.completing ms = past ++ motion :: future)
    (hvalid : motion.Valid (engine.turn ms motion).board)
    (harrived : motion.source ∈ (engine.turn ms motion).arrivedThisTick) :
    ∃ captor ∈ past, engine.result ms captor = .landed ∧ engine.Restores captor motion := by
  have hstart := engine.sameKinds_arrivalStart ms
  have hmem : motion ∈ engine.completing ms := by simp [hsplit]
  have hactive := (mem_completing.1 hmem).1
  have hunvacated := h.unvacated hsplit hactive (h.notMem_past hsplit)
  obtain ⟨captor, hcaptor, hresult, hsquare, hcell, his⟩ :=
    (h.frame_turn hsplit).captured _ hunvacated harrived
  have hcolor : captor.pieceColor = motion.pieceColor := his.2.2.symm.trans hvalid.color
  have henemy := (enemy_of_landed hresult (by
    rw [hsquare, hcell, hstart.isEmpty]
    exact hoccupied motion hactive)).1
  rw [hsquare, hcell, hcolor] at henemy
  exact ⟨captor, hcaptor, hresult,
    { before := h.motionLess_of_split hsplit hcaptor
      captured := ⟨(hstart.isEmpty _).symm.trans henemy.1, (hstart.color _).symm.trans henemy.2⟩
      square := hsquare
      color := hcolor
      type := his.2.1.symm.trans hvalid.type }⟩

/-- A source that nothing has reached is at the turn of its move as the call found it. -/
theorem Lifecycle.valid_turn_iff (h : engine.Lifecycle) {motion : Motion}
    (hmem : motion ∈ engine.completing ms)
    (hunarrived : motion.source ∉ (engine.turn ms motion).arrivedThisTick) :
    motion.Valid (engine.turn ms motion).board ↔ motion.Valid engine.board := by
  obtain ⟨past, future, hsplit⟩ := List.append_of_mem hmem
  have hunvacated := h.unvacated hsplit (mem_completing.1 hmem).1 (h.notMem_past hsplit)
  rw [Motion.Valid, (h.frame_turn hsplit).untouched _ hunvacated hunarrived]
  exact (engine.sameKinds_arrivalStart ms).valid motion

theorem Lifecycle.mayDepart (h : engine.Lifecycle) (hoccupied : engine.Occupied)
    {motion : Motion} (hmem : motion ∈ engine.completing ms)
    (hvalid : motion.Valid (engine.turn ms motion).board) : engine.MayDepart ms motion := by
  by_cases harrived : motion.source ∈ (engine.turn ms motion).arrivedThisTick
  · obtain ⟨past, future, hsplit⟩ := List.append_of_mem hmem
    obtain ⟨captor, hcaptor, -, hrestores⟩ :=
      h.exists_restores hoccupied hsplit hvalid harrived
    exact .inr ⟨captor, mem_completing_of_past hsplit hcaptor, hrestores⟩
  · exact .inl ((h.valid_turn_iff hmem harrived).1 hvalid)

/-- An active jump keeps its square as the call found it. -/
theorem Lifecycle.kind_turn_of_jump (h : engine.Lifecycle) (hair : engine.Airborne)
    {past future : List Motion} {motion : Motion}
    (hsplit : engine.completing ms = past ++ motion :: future) {pos : Position}
    (hjump : isJumpActiveAt engine.activeMotions pos = true) :
    ((engine.turn ms motion).board.cell pos).kind = (engine.board.cell pos).kind := by
  obtain ⟨jump, hactive, htype, rfl⟩ := isJumpActiveAt_iff.1 hjump
  rw [(cell_turns_jump h hair hactive htype).1 past motion future hsplit]
  exact (engine.sameKinds_arrivalStart ms).kind _

theorem Lifecycle.mayLand (h : engine.Lifecycle) (hoccupied : engine.Occupied)
    (hair : engine.Airborne) {motion : Motion} (hmem : motion ∈ engine.completing ms)
    (hresult : engine.result ms motion = .landed) : engine.MayLand ms motion := by
  obtain ⟨past, future, hsplit⟩ := List.append_of_mem hmem
  have hstart := engine.sameKinds_arrivalStart ms
  refine
    { departs := h.mayDepart hoccupied hmem (valid_of_landed hresult)
      grounded := ?_
      free := ?_ }
  · rw [← Bool.not_eq_true]
    intro hactive
    have hspec := engine.result_spec ms motion
    rw [hresult] at hspec
    rcases hspec.2 with hempty | ⟨-, hinactive, -⟩
    · have hkind := h.kind_turn_of_jump hair hsplit hactive
      obtain ⟨jump, hjump, -, hsource⟩ := isJumpActiveAt_iff.1 hactive
      have hfull := hoccupied jump hjump
      rw [hsource, ← Piece.isEmpty_congr hkind] at hfull
      exact Bool.false_ne_true (hfull.symm.trans hempty)
    · exact Bool.false_ne_true (hinactive.symm.trans hactive)
  · intro hfriendly
    by_contra hnone
    have hunvacated : engine.Unvacated ms past motion.destination := fun leaver hleaver hsource ↦
      absurd ⟨leaver, mem_completing_of_past hsplit hleaver, hsource,
        h.motionLess_of_split hsplit hleaver⟩ hnone
    have hfull : ((engine.turn ms motion).board.cell motion.destination).isEmpty = false := by
      apply (h.frame_turn hsplit).occupied hunvacated
      rw [hstart.isEmpty]
      exact ((Piece.isFriendly_iff _ _).1 hfriendly).1
    obtain ⟨henemy, hunarrived⟩ := enemy_of_landed hresult hfull
    have hfoe := henemy.not_isFriendly
    rw [(h.frame_turn hsplit).untouched _ hunvacated hunarrived,
      Piece.isFriendly_congr (hstart.kind _)] at hfoe
    exact Bool.false_ne_true (hfoe.symm.trans hfriendly)

theorem Lifecycle.unarrived_of_sourcesUnreached (h : engine.Lifecycle)
    (hunreached : engine.SourcesUnreached ms) {motion : Motion}
    (hmem : motion ∈ engine.completing ms) :
    motion.source ∉ (engine.turn ms motion).arrivedThisTick := by
  obtain ⟨past, future, hsplit⟩ := List.append_of_mem hmem
  intro harrived
  obtain ⟨mover, hmover, -, hsquare⟩ :=
    ((h.mem_arrived ms).1 past motion future hsplit _).1 harrived
  exact hunreached motion hmem mover (mem_completing_of_past hsplit hmover) hsquare

theorem Lifecycle.valid_turn_of_mayDepart (h : engine.Lifecycle)
    (hunreached : engine.SourcesUnreached ms) {motion : Motion}
    (hmem : motion ∈ engine.completing ms) (hdeparts : engine.MayDepart ms motion) :
    motion.Valid (engine.turn ms motion).board := by
  rw [h.valid_turn_iff hmem (h.unarrived_of_sourcesUnreached hunreached hmem)]
  refine hdeparts.resolve_right ?_
  rintro ⟨captor, hcaptor, hrestores⟩
  exact hunreached motion hmem captor hcaptor hrestores.square

/-! ## A landed piece is free unless it inherits a motion -/

/-- The motions that the call has started. -/
def startedIn (engine : GameEngine) (ms : ℤ) : List Motion :=
  (engine.advanceTime ms).activeMotions.filter (· ∉ engine.activeMotions)

/-- Every piece that has landed and stays is free after a call that leaves the game going, unless a
premove has set it in motion. -/
def LandedAreFree (engine : GameEngine) (ms : ℕ) : Prop :=
  (engine.advanceTime ms).isGameOver = false →
    ∀ motion ∈ engine.completing ms, engine.Stays ms motion →
      (∀ started ∈ engine.startedIn ms, started.source ≠ motion.destination) →
        (engine.advanceTime ms).isBusyAt motion.destination = false

instance (engine : GameEngine) (ms : ℕ) : Decidable (engine.LandedAreFree ms) :=
  inferInstanceAs (Decidable (_ → ∀ motion ∈ engine.completing ms, _))

/-- A completing move that may find its piece goes to an enemy that is the source of a move which
outlasts the call. -/
structure TakesRunner (engine : GameEngine) (ms : ℤ) (motion runner : Motion) : Prop where
  departs : engine.MayDepart ms motion
  enemy : Enemy (engine.board.cell motion.destination) motion.pieceColor
  square : runner.source = motion.destination
  type : runner.type = .move
  outlasts : runner.isExpired (engine.elapsedMs + ms) = false

instance (engine : GameEngine) (ms : ℤ) (motion runner : Motion) :
    Decidable (engine.TakesRunner ms motion runner) :=
  decidable_of_iff (engine.MayDepart ms motion ∧
      Enemy (engine.board.cell motion.destination) motion.pieceColor ∧
      runner.source = motion.destination ∧ runner.type = .move ∧
      runner.isExpired (engine.elapsedMs + ms) = false)
    ⟨fun ⟨departs, enemy, square, type, outlasts⟩ ↦ ⟨departs, enemy, square, type, outlasts⟩,
      fun h ↦ ⟨h.departs, h.enemy, h.square, h.type, h.outlasts⟩⟩

/-- No completing move takes a piece whose own move outlasts the call, or the game ends. -/
def NoRunnerTaken (engine : GameEngine) (ms : ℕ) : Prop :=
  engine.EndsGame ms ∨ ∀ motion ∈ engine.completing ms, ∀ runner ∈ engine.activeMotions,
    ¬ engine.TakesRunner ms motion runner

instance (engine : GameEngine) (ms : ℕ) : Decidable (engine.NoRunnerTaken ms) :=
  inferInstanceAs (Decidable (_ ∨ ∀ motion ∈ engine.completing ms,
    ∀ runner ∈ engine.activeMotions, _))

/-- After the call a square is busy by a motion that outlasts the call or has been started in it. -/
theorem Lifecycle.isBusyAt_advanceTime_iff (h : engine.Lifecycle) (ms : ℕ) (pos : Position) :
    (engine.advanceTime ms).isBusyAt pos = true ↔
      (∃ motion ∈ engine.activeMotions, motion.source = pos ∧
        motion.isExpired (engine.elapsedMs + ms) = false) ∨
      ∃ started ∈ engine.startedIn ms, started.source = pos := by
  simp only [isBusyAt, List.any_eq_true, decide_eq_true_eq, startedIn, List.mem_filter]
  constructor
  · rintro ⟨motion, hmem, hsource⟩
    by_cases hold : motion ∈ engine.activeMotions
    · have hrunning := (h.advanceTime ms).unexpired motion hmem
      rw [elapsedMs_advanceTime] at hrunning
      exact .inl ⟨motion, hold, hsource, hrunning⟩
    · exact .inr ⟨motion, ⟨hmem, hold⟩, hsource⟩
  · rintro (⟨motion, hmem, hsource, hrunning⟩ | ⟨started, ⟨hmem, -⟩, hsource⟩)
    · rw [← elapsedMs_advanceTime, ← step_advanceTime] at hrunning
      exact ⟨motion, mem_activeMotions_step hmem (.advanceTime ms) hrunning, hsource⟩
    · exact ⟨started, hmem, hsource⟩

/-- No piece leaves the source of a motion that outlasts the call. -/
theorem Lifecycle.unvacated_of_outlasts (h : engine.Lifecycle) {runner : Motion}
    (hrunner : runner ∈ engine.activeMotions)
    (houtlasts : runner.isExpired (engine.elapsedMs + ms) = false) :
    engine.Unvacated ms (engine.completing ms) runner.source := by
  apply h.unvacated (List.append_nil _).symm hrunner
  intro hmem
  exact Bool.false_ne_true (houtlasts.symm.trans (mem_completing.1 hmem).2.2)

/-- A move that lands on the source of a running motion takes a runner. -/
theorem Lifecycle.takesRunner_of_landed (h : engine.Lifecycle) (hoccupied : engine.Occupied)
    {motion runner : Motion} (hmem : motion ∈ engine.completing ms)
    (hresult : engine.result ms motion = .landed) (hrunner : runner ∈ engine.activeMotions)
    (hsquare : runner.source = motion.destination)
    (houtlasts : runner.isExpired (engine.elapsedMs + ms) = false) :
    engine.TakesRunner ms motion runner := by
  obtain ⟨past, future, hsplit⟩ := List.append_of_mem hmem
  have hstart := engine.sameKinds_arrivalStart ms
  have hframe := h.frame_turn hsplit
  have hunvacated : engine.Unvacated ms past motion.destination :=
    hsquare ▸ (h.unvacated_of_outlasts hrunner houtlasts).mono fun other ↦
      mem_completing_of_past hsplit
  have hfull : ((engine.turn ms motion).board.cell motion.destination).isEmpty = false := by
    apply hframe.occupied hunvacated
    rw [hstart.isEmpty, ← hsquare]
    exact hoccupied runner hrunner
  obtain ⟨henemy, hunarrived⟩ := enemy_of_landed hresult hfull
  rw [hframe.untouched _ hunvacated hunarrived] at henemy
  refine
    { departs := h.mayDepart hoccupied hmem (valid_of_landed hresult)
      enemy := ⟨(hstart.isEmpty _).symm.trans henemy.1, (hstart.color _).symm.trans henemy.2⟩
      square := hsquare
      type := ?_
      outlasts := houtlasts }
  cases htype : runner.type with
  | move => rfl
  | jump =>
    have hspec := engine.result_spec ms motion
    have hjump := isJumpActiveAt_of_mem hrunner htype
    rw [hresult] at hspec
    rw [hsquare, (hspec.2.resolve_left (by simp [hfull])).2.1] at hjump
    exact absurd hjump Bool.false_ne_true

/-- Where a runner is taken, a piece lands and stays. -/
theorem Lifecycle.exists_stays_of_takesRunner (h : engine.Lifecycle)
    {motion runner : Motion} (hmem : motion ∈ engine.completing ms)
    (hvalid : motion.Valid (engine.turn ms motion).board)
    (hrunner : runner ∈ engine.activeMotions) (htakes : engine.TakesRunner ms motion runner) :
    ∃ winner ∈ engine.completing ms, winner.destination = motion.destination ∧
      engine.Stays ms winner := by
  obtain ⟨past, future, hsplit⟩ := List.append_of_mem hmem
  have hstart := engine.sameKinds_arrivalStart ms
  have hunvacated := htakes.square ▸ h.unvacated_of_outlasts hrunner htakes.outlasts
  have hpast : ∀ other ∈ past, other ∈ engine.completing ms := fun other ↦
    mem_completing_of_past hsplit
  have hfull : ((engine.arrivalTick ms).board.cell motion.destination).isEmpty = false := by
    apply (h.frame_arrivalTick ms).occupied hunvacated
    rw [hstart.isEmpty]
    exact htakes.enemy.1
  apply h.exists_stays _ hfull
  by_cases harrived : motion.destination ∈ (engine.turn ms motion).arrivedThisTick
  · exact h.mem_arrived_of_turn hsplit harrived
  refine ((h.mem_arrived ms).2 _).2 ⟨motion, hmem, ?_, rfl⟩
  have hgrounded : isJumpActiveAt engine.activeMotions motion.destination = false := by
    rw [← Bool.not_eq_true]
    intro hactive
    obtain ⟨jump, hjump, htype, hsource⟩ := isJumpActiveAt_iff.1 hactive
    rw [h.eq_of_source_eq hjump hrunner (hsource.trans htakes.square.symm), htakes.type] at htype
    exact MotionType.noConfusion htype
  refine landed_of_unopposed hvalid ?_ hgrounded harrived
  rw [(h.frame_turn hsplit).untouched _ (hunvacated.mono hpast) harrived,
    Piece.isFriendly_congr (hstart.kind _)]
  exact htakes.enemy.not_isFriendly

/-- Where no runner is taken, landed pieces are free. -/
theorem Lifecycle.landedAreFree (h : engine.Lifecycle) (hoccupied : engine.Occupied) {ms : ℕ}
    (hnone : engine.NoRunnerTaken ms) : engine.LandedAreFree ms := by
  intro hgoing motion hmem hstays hstarted
  have hspared := hnone.resolve_left fun hends ↦
    Bool.false_ne_true (hgoing.symm.trans ((engine.isGameOver_advanceTime_iff ms).2 hends))
  rw [← Bool.not_eq_true, h.isBusyAt_advanceTime_iff]
  rintro (⟨runner, hrunner, hsource, houtlasts⟩ | ⟨started, hmem', hsource⟩)
  · exact hspared motion hmem runner hrunner
      (h.takesRunner_of_landed hoccupied hmem hstays.landed hrunner hsource houtlasts)
  · exact hstarted started hmem' hsource

/-- A runner that is taken keeps a landed piece busy. -/
theorem Lifecycle.noRunnerTaken (h : engine.Lifecycle) {ms : ℕ}
    (hunreached : engine.SourcesUnreached ms) (hfree : engine.LandedAreFree ms) :
    engine.NoRunnerTaken ms := by
  by_cases hends : engine.EndsGame ms
  · exact .inl hends
  right
  intro motion hmem runner hrunner htakes
  have hgoing : (engine.advanceTime ms).isGameOver = false := by
    rw [← Bool.not_eq_true, isGameOver_advanceTime_iff]
    exact hends
  have hvalid := h.valid_turn_of_mayDepart hunreached hmem htakes.departs
  obtain ⟨winner, hwinner, hsquare, hstays⟩ :=
    h.exists_stays_of_takesRunner hmem hvalid hrunner htakes
  have hbusy : (engine.advanceTime ms).isBusyAt winner.destination = true := by
    rw [h.isBusyAt_advanceTime_iff, hsquare, ← htakes.square]
    exact .inl ⟨runner, hrunner, rfl, htakes.outlasts⟩
  -- The runner keeps its square busy, so that no premove starts from there.
  have hstarted : ∀ started ∈ engine.startedIn ms, started.source ≠ winner.destination := by
    intro started hmem' hsource
    rw [startedIn, List.mem_filter, decide_eq_true_eq] at hmem'
    have hrunning : runner ∈ (engine.advanceTime ms).activeMotions := by
      apply mem_activeMotions_step hrunner (.advanceTime ms)
      rw [step_advanceTime, elapsedMs_advanceTime]
      exact htakes.outlasts
    have hsame : started.source = runner.source :=
      calc
        started.source = winner.destination := hsource
        _ = motion.destination := hsquare
        _ = runner.source := htakes.square.symm
    have heq := (h.advanceTime ms).eq_of_source_eq hmem'.1 hrunning hsame
    exact hmem'.2 (heq ▸ hrunner)
  exact Bool.false_ne_true ((hfree hgoing winner hwinner hstays hstarted).symm.trans hbusy)

end GameEngine

end KongFuChess.Engine
