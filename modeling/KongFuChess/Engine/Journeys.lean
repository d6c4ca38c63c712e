import KongFuChess.Engine.Identity
import KongFuChess.Engine.Settling
import KongFuChess.Rules.Chess

/-!
# Where a piece has come from

The history of a run names for every piece the square on which it stood at the reset. Between that
square and its present one a piece has made some number of moves, and what every single move keeps
holds of the whole way: a bishop stands on a square of the colour on which it began, and a pawn in
the cone in front of its first square. No two pieces have come from one square.

A move takes a second for each square, so a piece is never further from its first square than there
have been seconds. This needs the moves to be those of the piece: a piece that recaptures a square
may be carried away from it by the move of its predecessor before the time for that is up.
-/

namespace KongFuChess.Rules

open Model

/-- Some number of moves of such a piece may lead from the first square to the second. -/
def WithinReach (type : PieceType) (color : Color) (fromPos toPos : Position) : Prop :=
  match type with
  | .bishop => (toPos.row - fromPos.row + (toPos.col - fromPos.col)) % 2 = 0
  | .pawn => (colDistance fromPos toPos : ℤ) ≤ (toPos.row - fromPos.row) * forwardRow color
  | _ => True

instance (type : PieceType) (color : Color) (fromPos toPos : Position) :
    Decidable (WithinReach type color fromPos toPos) := by
  unfold WithinReach
  cases type <;> infer_instance

namespace WithinReach

variable {type : PieceType} {color : Color}

theorem refl (type : PieceType) (color : Color) (pos : Position) :
    WithinReach type color pos pos := by
  cases type <;> simp [WithinReach, colDistance]

theorem trans {first second third : Position} (h : WithinReach type color first second)
    (h' : WithinReach type color second third) : WithinReach type color first third := by
  cases type with
  | bishop =>
    simp only [WithinReach] at h h' ⊢
    omega
  | pawn =>
    cases color <;> simp only [WithinReach, colDistance, forwardRow] at h h' ⊢ <;>
      simp only [if_true, reduceCtorEq, if_false] at h h' ⊢ <;> omega
  | _ => trivial

/-- Every single move stays within reach. -/
theorem of_pieceMove {board : Board} {fromPos toPos : Position} {piece : Piece}
    (h : PieceMove board fromPos toPos piece) :
    WithinReach piece.type piece.color fromPos toPos := by
  unfold PieceMove at h
  cases htype : piece.type with
  | bishop =>
    rw [htype] at h
    have hdiagonal := h.1
    simp only [rowDistance, colDistance] at hdiagonal
    simp only [WithinReach]
    omega
  | pawn =>
    rw [htype] at h
    simp only [WithinReach, colDistance]
    have hforward : forwardRow piece.color * forwardRow piece.color = 1 := by
      cases piece.color <;> rfl
    cases h with
    | step hrow hcol =>
      rw [hrow, hcol]
      simp [hforward]
    | twoSteps hrow hcol =>
      rw [hrow, hcol]
      simp [mul_assoc, hforward]
    | takes hrow hcol =>
      rw [colDistance] at hcol
      rw [hrow, hcol]
      simp [hforward]
  | _ => trivial

end WithinReach

theorem distance_triangle (first second third : Position) :
    distance first third ≤ distance first second + distance second third := by
  unfold distance
  omega

end KongFuChess.Rules

namespace KongFuChess.Engine

open Model Realtime Rules Events

/-! ## Journeys -/

/-- What a piece has in common with the one that stood on its first square. -/
structure ComesFrom (start : Board) (origin pos : Position) (piece : Piece) : Prop where
  occupied : (start.cell origin).isEmpty = false
  color : piece.color = (start.cell origin).color
  /-- The piece has walked here, or it is a pawn that has been promoted. -/
  walked : piece.type = (start.cell origin).type ∧
      WithinReach piece.type piece.color origin pos ∨
    (start.cell origin).type = .pawn ∧ piece.type = .queen

theorem ComesFrom.congr {start : Board} {origin pos : Position} {piece other : Piece}
    (h : ComesFrom start origin pos piece) (hkind : other.kind = piece.kind) :
    ComesFrom start origin pos other where
  occupied := h.occupied
  color := (Piece.color_congr hkind).trans h.color
  walked := by
    rw [Piece.type_congr hkind, Piece.color_congr hkind]
    exact h.walked

/-- The pieces of the board have come from different pieces of the first board. -/
structure Journey (start : Board) (occupancy : Occupancy) (board : Board) : Prop where
  comesFrom : ∀ pos, (board.cell pos).isEmpty = false →
    ComesFrom start (occupancy.origin pos) pos (board.cell pos)
  apart : ∀ left right, (board.cell left).isEmpty = false → (board.cell right).isEmpty = false →
    occupancy.origin left = occupancy.origin right → left = right

namespace Journey

variable {start board : Board} {occupancy : Occupancy}

theorem initial (start : Board) : Journey start .initial start where
  comesFrom := fun _ hfull ↦ ⟨hfull, rfl, .inl ⟨rfl, .refl _ _ _⟩⟩
  apart := fun _ _ _ _ heq ↦ heq

theorem congr (h : Journey start occupancy board) {later : Board} (hsame : SameKinds later board) :
    Journey start occupancy later where
  comesFrom := fun pos hfull ↦
    (h.comesFrom pos ((hsame.isEmpty pos).symm.trans hfull)).congr (hsame.kind pos)
  apart := fun left right hleft hright ↦
    h.apart left right ((hsame.isEmpty left).symm.trans hleft)
      ((hsame.isEmpty right).symm.trans hright)

/-- A piece that lands has come from its source, and any other from where it has been standing. -/
theorem stands_of_full (occupancy : Occupancy) {tick : Tick} {motion : Motion}
    (hon : motion.OnBoard tick.board) {result : Outcome} {pos : Position}
    (hfull : ((tick.settle motion result).board.cell pos).isEmpty = false)
    (hdestination : ¬ (result = .landed ∧ pos = motion.destination)) :
    (tick.settle motion result).board.cell pos = tick.board.cell pos ∧
      (occupancy.settle motion result).origin pos = occupancy.origin pos ∧
      (result = .landed → pos ≠ motion.source) := by
  have hkept : motion.source = pos → result = .stale ∨ result = .blocked := kept_of_full hon hfull
  refine ⟨cell_settle_of_ne hon hkept fun hresult heq ↦ hdestination ⟨hresult, heq⟩, ?_, ?_⟩
  · cases result with
    | landed => exact congrArg occupancy.origin (if_neg fun heq ↦ hdestination ⟨rfl, heq⟩)
    | _ => rfl
  · rintro rfl rfl
    exact absurd (hkept rfl) (by simp)

/-- A piece that lands goes on with its journey. -/
theorem comesFrom_landed {tick : Tick} {motion : Motion} (hvalid : motion.Valid tick.board)
    (h : Journey start occupancy tick.board)
    (hreach : WithinReach motion.pieceType motion.pieceColor motion.source motion.destination) :
    ComesFrom start (occupancy.origin motion.source) motion.destination
      (landedPiece tick.board motion) := by
  obtain ⟨hoccupied, hcolor, hwalked⟩ := h.comesFrom motion.source hvalid.not_isEmpty
  obtain ⟨-, htype, hlandedColor⟩ := landedPiece_is hvalid
  rw [hvalid.type, hvalid.color] at hwalked
  refine ⟨hoccupied, (landedPiece_color ..).trans hcolor, ?_⟩
  rw [htype, hlandedColor, landedType]
  split
  · rename_i hpromoted
    rcases hwalked with ⟨hsame, -⟩ | ⟨hpawn, -⟩
    · exact .inr ⟨hsame.symm.trans hpromoted.1, rfl⟩
    · exact .inr ⟨hpawn, rfl⟩
  · rcases hwalked with ⟨hsame, hway⟩ | hqueen
    · exact .inl ⟨hsame, hway.trans hreach⟩
    · exact .inr hqueen

theorem settle {tick : Tick} {motion : Motion} {result : Outcome}
    (h : Journey start occupancy tick.board) (hon : motion.OnBoard tick.board)
    (hvalid : result = .landed → motion.Valid tick.board)
    (hreach : WithinReach motion.pieceType motion.pieceColor motion.source motion.destination) :
    Journey start (occupancy.settle motion result) (tick.settle motion result).board := by
  have horigin : result = .landed →
      (occupancy.settle motion result).origin motion.destination =
        occupancy.origin motion.source := by
    rintro rfl
    exact congrArg occupancy.origin (if_pos rfl)
  constructor
  · intro pos hfull
    by_cases hlanded : result = .landed ∧ pos = motion.destination
    · obtain ⟨hresult, rfl⟩ := hlanded
      rw [horigin hresult, hresult, cell_settle_landed hon]
      exact comesFrom_landed (hvalid hresult) h hreach
    · obtain ⟨hcell, hsame, -⟩ := stands_of_full occupancy hon hfull hlanded
      rw [hcell] at hfull ⊢
      rw [hsame]
      exact h.comesFrom pos hfull
  · -- A piece that has just landed is apart from one that stands, since its source is empty now.
    have hapart : ∀ pos, ((tick.settle motion result).board.cell pos).isEmpty = false →
        result = .landed → pos ≠ motion.destination →
          (occupancy.settle motion result).origin pos ≠ occupancy.origin motion.source := by
      intro pos hfull hresult hne heq
      obtain ⟨hcell, hsame, hsource⟩ := stands_of_full occupancy hon hfull
        fun hlanded ↦ hne hlanded.2
      rw [hcell] at hfull
      rw [hsame] at heq
      exact hsource hresult
        (h.apart pos motion.source hfull (hvalid hresult).not_isEmpty heq)
    intro left right hleft hright heq
    by_cases hlandedLeft : result = .landed ∧ left = motion.destination
    · obtain ⟨hresult, rfl⟩ := hlandedLeft
      rw [horigin hresult] at heq
      by_contra hne
      exact hapart right hright hresult (Ne.symm hne) heq.symm
    by_cases hlandedRight : result = .landed ∧ right = motion.destination
    · obtain ⟨hresult, rfl⟩ := hlandedRight
      rw [horigin hresult] at heq
      by_contra hne
      exact hapart left hleft hresult hne heq
    · obtain ⟨hcellLeft, hsameLeft, -⟩ :=
        stands_of_full occupancy hon hleft hlandedLeft
      obtain ⟨hcellRight, hsameRight, -⟩ :=
        stands_of_full occupancy hon hright hlandedRight
      rw [hcellLeft] at hleft
      rw [hcellRight] at hright
      rw [hsameLeft, hsameRight] at heq
      exact h.apart left right hleft hright heq

end Journey

namespace Tracked

theorem occupancyThrough_append (tracked : Tracked) (ms : ℤ) (past : List Motion)
    (motion : Motion) : tracked.occupancyThrough ms (past ++ [motion]) =
      (tracked.occupancyThrough ms past).settle motion (tracked.engine.result ms motion) :=
  List.foldl_append ..

/-- Every move in flight is one that its piece can make. -/
def Legged (engine : GameEngine) : Prop :=
  ∀ motion ∈ engine.activeMotions, motion.type = .move →
    WithinReach motion.pieceType motion.pieceColor motion.source motion.destination

theorem legged_step {engine : GameEngine} (h : Legged engine) (op : Op) :
    Legged (engine.step op) :=
  GameEngine.forall_active_step
    (fun later fromPos toPos haccepted _ ↦ .of_pieceMove
      ((validateMove_iff later.board fromPos toPos).1 haccepted.valid).1.pieceMove)
    (fun _ _ _ hmove ↦ absurd hmove (by simp [GameEngine.newJump])) h op

/-- The invariant of the journeys. -/
structure Travels (start : Board) (tracked : Tracked) : Prop where
  lifecycle : tracked.engine.Lifecycle
  legged : Legged tracked.engine
  journey : Journey start tracked.occupancy tracked.engine.board

theorem Travels.journey_advanceTime {start : Board} {tracked : Tracked} (h : tracked.Travels start)
    (ms : ℕ) : Journey start (tracked.occupancyAfter (.advanceTime ms))
      (tracked.engine.advanceTime ms).board := by
  have hturns := h.lifecycle.turns ms
    (I := fun past tick ↦ Journey start (tracked.occupancyThrough ms past) tick.board)
    (h.journey.congr (tracked.engine.sameKinds_arrivalStart ms)) (by
      intro past motion future hsplit hon hpast
      have hmem : motion ∈ tracked.engine.completing ms := by simp [hsplit]
      obtain ⟨hactive, htype, -⟩ := GameEngine.mem_completing.1 hmem
      rw [occupancyThrough_append]
      exact hpast.settle hon GameEngine.valid_of_landed (h.legged motion hactive htype))
  rw [occupancyAfter, h.lifecycle.arrivals_eq]
  exact hturns.2.congr (tracked.engine.sameKinds_advanceTime ms)

theorem Travels.step {start : Board} {tracked : Tracked} (h : tracked.Travels start) (op : Op) :
    (tracked.step op).Travels start where
  lifecycle := h.lifecycle.step op
  legged := legged_step h.legged op
  journey := by
    by_cases hadvance : ∃ ms, op = .advanceTime ms
    · obtain ⟨ms, rfl⟩ := hadvance
      exact h.journey_advanceTime ms
    · have hother : ∀ ms, op ≠ .advanceTime ms := fun ms heq ↦ hadvance ⟨ms, heq⟩
      simp only [Tracked.step]
      rw [tracked.occupancyAfter_of_ne hother, GameEngine.board_step _ hother]
      exact h.journey

/-- In every run the pieces of the board have come from different pieces of the first board, each
from one of its own colour and on a way that its kind can go. -/
theorem journeys (before : GameEngine) (ops : List Op) :
    Journey before.board (Transition.run step (ofReset before) ops).occupancy
      (before.reset.run ops).board := by
  have htravels : (Transition.run step (ofReset before) ops).Travels before.board :=
    Transition.run_invariant step (fun _ op h ↦ h.step op)
      ⟨GameEngine.lifecycle_reset before, fun _ hmem ↦ absurd hmem List.not_mem_nil,
        .initial before.board⟩ ops
  have hjourney := htravels.journey
  rwa [engine_run] at hjourney

/-! ## The speed limit -/

/-- The time that a piece needs from the one square to the other. -/
def walkMs (fromPos toPos : Position) : ℤ := distance fromPos toPos * GameConfig.kMoveDurationMs

theorem walkMs_triangle (first second third : Position) :
    walkMs first third ≤ walkMs first second + walkMs second third := by
  have htriangle := distance_triangle first second third
  simp only [walkMs, GameConfig.kMoveDurationMs]
  omega

/-- No piece is further from its first square than the clock allows, and no mover was so when its
move started. -/
structure Paced (tracked : Tracked) : Prop where
  faithful : tracked.Faithful
  timed : tracked.engine.Timed
  pieces : ∀ pos, (tracked.engine.board.cell pos).isEmpty = false →
    walkMs (tracked.occupancy.origin pos) pos ≤ tracked.engine.elapsedMs
  movers : ∀ motion ∈ tracked.engine.activeMotions, motion.type = .move →
    walkMs ((tracked.startedWith motion).origin motion.source) motion.source ≤ motion.startedAtMs

theorem paced_ofReset (before : GameEngine) : (ofReset before).Paced where
  faithful := faithful_ofReset before
  timed := GameEngine.timed_reset before
  pieces := by
    intro pos _
    simp only [ofReset, Occupancy.initial, walkMs, distance, sub_self, Int.natAbs_zero, max_self,
      Nat.cast_zero, zero_mul]
    exact le_rfl
  movers := fun _ hmem ↦ absurd hmem List.not_mem_nil

/-- A piece that lands has moved by itself, so its whole way is covered by the time. -/
theorem Paced.landed {tracked : Tracked} (h : tracked.Paced) {ms : ℕ}
    (hrecapture : tracked.engine.NoRecapture ms) {past future : List Motion} {motion : Motion}
    (hsplit : tracked.engine.completing ms = past ++ motion :: future)
    (hresult : tracked.engine.result ms motion = .landed) :
    walkMs ((tracked.occupancyThrough ms past).origin motion.source) motion.destination ≤
      tracked.engine.elapsedMs + ms := by
  have hlife := h.faithful.lifecycle
  have hmem : motion ∈ tracked.engine.completing ms := by simp [hsplit]
  obtain ⟨hactive, htype, hexpired⟩ := GameEngine.mem_completing.1 hmem
  have hown := h.faithful.movesOwnPieces hrecapture motion (by rwa [hlife.arrivals_eq]) hresult
  rw [occupancyAt, hlife.resolvedBefore_eq hsplit] at hown
  rw [hown.1]
  have hstarted := h.movers motion hactive htype
  have hduration := h.timed.move motion hactive htype
  rw [GameEngine.isExpired_iff] at hexpired
  calc
    _ ≤ walkMs ((tracked.startedWith motion).origin motion.source) motion.source +
        walkMs motion.source motion.destination := walkMs_triangle ..
    _ ≤ motion.startedAtMs + motion.durationMs := add_le_add hstarted hduration.symm.le
    _ ≤ tracked.engine.elapsedMs + ms := hexpired

theorem Paced.pieces_advanceTime {tracked : Tracked} (h : tracked.Paced) {ms : ℕ}
    (hrecapture : tracked.engine.NoRecapture ms) (pos : Position)
    (hfull : ((tracked.engine.advanceTime ms).board.cell pos).isEmpty = false) :
    walkMs ((tracked.occupancyAfter (.advanceTime ms)).origin pos) pos ≤
      tracked.engine.elapsedMs + ms := by
  have hlife := h.faithful.lifecycle
  rw [(tracked.engine.sameKinds_advanceTime ms).isEmpty] at hfull
  rw [occupancyAfter, hlife.arrivals_eq]
  refine (hlife.turns ms
    (I := fun past tick ↦ ∀ pos, (tick.board.cell pos).isEmpty = false →
      walkMs ((tracked.occupancyThrough ms past).origin pos) pos ≤ tracked.engine.elapsedMs + ms)
    ?_ ?_).2 pos hfull
  · intro pos hfull
    rw [(tracked.engine.sameKinds_arrivalStart ms).isEmpty] at hfull
    exact (h.pieces pos hfull).trans (by omega)
  · intro past motion future hsplit hon hpast pos hfull
    rw [occupancyThrough_append]
    by_cases hlanded : tracked.engine.result ms motion = .landed ∧ pos = motion.destination
    · obtain ⟨hresult, rfl⟩ := hlanded
      rw [hresult]
      simp only [Occupancy.settle, if_true]
      exact h.landed hrecapture hsplit hresult
    · obtain ⟨hcell, hsame, -⟩ :=
        Journey.stands_of_full (tracked.occupancyThrough ms past) hon hfull hlanded
      rw [hcell] at hfull
      rw [hsame]
      exact hpast pos hfull

theorem Paced.step {tracked : Tracked} (h : tracked.Paced) {op : Op}
    (hrecapture : AtAdvance (fun tracked : Tracked ↦ tracked.engine.NoRecapture) tracked op) :
    (tracked.step op).Paced := by
  have hfaithful := h.faithful.step hrecapture
  have hpieces : ∀ pos, ((tracked.engine.step op).board.cell pos).isEmpty = false →
      walkMs ((tracked.occupancyAfter op).origin pos) pos ≤
        (tracked.engine.step op).elapsedMs := by
    by_cases hadvance : ∃ ms, op = .advanceTime ms
    · obtain ⟨ms, rfl⟩ := hadvance
      rw [GameEngine.step_advanceTime, GameEngine.elapsedMs_advanceTime]
      exact h.pieces_advanceTime hrecapture
    · have hother : ∀ ms, op ≠ .advanceTime ms := fun ms heq ↦ hadvance ⟨ms, heq⟩
      rw [tracked.occupancyAfter_of_ne hother, GameEngine.board_step _ hother]
      exact fun pos hfull ↦ (h.pieces pos hfull).trans (GameEngine.elapsedMs_step _ op)
  refine
    { faithful := hfaithful
      timed := h.timed.step op
      pieces := hpieces
      movers := ?_ }
  intro motion hmem htype
  simp only [Tracked.step]
  by_cases hold : motion ∈ tracked.engine.activeMotions
  · rw [if_pos hold]
    exact h.movers motion hold htype
  · rw [if_neg hold]
    have hstarted := (tracked.engine.mem_or_startedAt_step op motion hmem).resolve_left hold
    rw [hstarted]
    exact hpieces motion.source (hfaithful.occupied motion hmem)

/-- The speed limit: in a run without recaptures every piece has had a second for each square
between the one on which it stood at the reset and the one on which it stands now. -/
theorem speed_limit (before : GameEngine) (ops : List Op)
    (h : Transition.Along step (AtAdvance fun tracked ↦ tracked.engine.NoRecapture)
      (ofReset before) ops) (pos : Position)
    (hfull : ((before.reset.run ops).board.cell pos).isEmpty = false) :
    walkMs ((Transition.run step (ofReset before) ops).occupancy.origin pos) pos ≤
      (before.reset.run ops).elapsedMs := by
  have hpaced := h.invariant (I := Paced) (fun _ _ hpaced hrecapture ↦ hpaced.step hrecapture)
    (paced_ofReset before)
  have hengine : (Transition.run step (ofReset before) ops).engine = before.reset.run ops :=
    engine_run (ofReset before) ops
  rw [← hengine] at hfull ⊢
  exact hpaced.pieces pos hfull

/-- A capture in the corner, and the move of the lost rook after it. -/
def cornerCapture : List Op :=
  [.requestMove ⟨0, 0⟩ ⟨0, 4⟩, .requestMove ⟨1, 0⟩ ⟨0, 0⟩, .advanceTime 1000, .advanceTime 3000]

/-- The captor has come from the square beside the corner. -/
theorem speed_limit_captor :
    (Transition.run step (ofReset { board := rooksBoard }) cornerCapture).occupancy.origin ⟨0, 0⟩ =
        ⟨1, 0⟩ ∧
      walkMs ((Transition.run step (ofReset { board := rooksBoard })
          cornerCapture).occupancy.origin ⟨0, 0⟩) ⟨0, 0⟩ ≤
        (({ board := rooksBoard } : GameEngine).reset.run cornerCapture).elapsedMs :=
  ⟨by decide, speed_limit { board := rooksBoard } cornerCapture (by decide) ⟨0, 0⟩ (by decide)⟩

/-- Two white rooks in one row, and a black one beside the square of the second. -/
def relayBoard : Board where
  cells :=
    [[.of .rook .white, .empty, .of .rook .white, .empty, .empty, .empty, .empty],
     [.empty, .empty, .of .rook .black, .empty, .empty, .empty, .empty]]
  rectangular := by decide

/-- After a recapture the move of the lost rook carries the other one six squares in four
seconds. -/
example :
    let tracked := Transition.run step (ofReset { board := relayBoard })
      [.requestMove ⟨0, 2⟩ ⟨0, 6⟩, .requestMove ⟨1, 2⟩ ⟨0, 2⟩, .advanceTime 1000,
        .requestMove ⟨0, 0⟩ ⟨0, 2⟩, .advanceTime 2000, .advanceTime 1000]
    walkMs (tracked.occupancy.origin ⟨0, 6⟩) ⟨0, 6⟩ = 6000 ∧ tracked.engine.elapsedMs = 4000 := by
  decide

end Tracked

end KongFuChess.Engine
