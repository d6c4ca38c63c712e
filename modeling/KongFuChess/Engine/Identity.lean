import KongFuChess.Engine.Turns
import Mathlib.Logic.Function.Basic

/-!
# Which piece a motion moves

A motion records the type and colour of the piece that started it, not the piece itself. To say
which individual piece a landing moves, the runs of the engine are extended by a history that the
engine does not keep: for every square the square on which its present occupant stood at the reset,
and the number of times its occupant has changed. Each motion remembers the history at its start.

A motion can move a foreign piece only after a recapture: its own piece was captured on the source
square, and then a piece of its own type and colour took the captor. Runs without such a recapture
move every piece by the motion that it started itself.
-/

namespace KongFuChess.Engine

open Model Realtime Rules Events

/-- The individual pieces behind the board. -/
structure Occupancy where
  origin : Position → Position
  changes : Position → ℕ

namespace Occupancy

/-- At the reset every piece stands on its own square. -/
def initial : Occupancy where
  origin := fun pos ↦ pos
  changes := fun _ ↦ 0

/-- The occupants after an arrival with the given outcome. -/
def settle (occupancy : Occupancy) (motion : Motion) : Outcome → Occupancy
  | .stale => occupancy
  | .blocked => occupancy
  | .jumpCaptured =>
    { occupancy with
      changes := fun pos ↦ occupancy.changes pos + if pos = motion.source then 1 else 0 }
  | .lostTie =>
    { occupancy with
      changes := fun pos ↦ occupancy.changes pos + if pos = motion.source then 1 else 0 }
  | .landed =>
    { origin := fun pos ↦
        occupancy.origin (if pos = motion.destination then motion.source else pos)
      changes := fun pos ↦ occupancy.changes pos +
        if pos = motion.source ∨ pos = motion.destination then 1 else 0 }

/-- The same individual has been standing on the square all the time between two moments. -/
def SameAt (later earlier : Occupancy) (pos : Position) : Prop :=
  later.origin pos = earlier.origin pos ∧ later.changes pos = earlier.changes pos

instance (later earlier : Occupancy) (pos : Position) : Decidable (SameAt later earlier pos) :=
  inferInstanceAs (Decidable (_ ∧ _))

theorem sameAt_settle (occupancy : Occupancy) (motion : Motion) {result : Outcome} {pos : Position}
    (hsource : motion.source = pos → result = .stale ∨ result = .blocked)
    (hdestination : result = .landed → pos ≠ motion.destination) :
    (occupancy.settle motion result).SameAt occupancy pos := by
  have hne : result ≠ .stale → result ≠ .blocked → pos ≠ motion.source :=
    fun hstale hblocked heq ↦ (hsource heq.symm).elim hstale hblocked
  cases result with
  | stale => exact ⟨rfl, rfl⟩
  | blocked => exact ⟨rfl, rfl⟩
  | jumpCaptured => simp [settle, SameAt, hne]
  | lostTie => simp [settle, SameAt, hne]
  | landed => simp [settle, SameAt, hne, hdestination rfl]

theorem SameAt.trans {first second third : Occupancy} {pos : Position}
    (h : first.SameAt second pos) (h' : second.SameAt third pos) : first.SameAt third pos :=
  ⟨h.1.trans h'.1, h.2.trans h'.2⟩

end Occupancy

namespace GameEngine

/-! ## The source of a running motion is never empty -/

def Occupied (engine : GameEngine) : Prop :=
  ∀ motion ∈ engine.activeMotions, (engine.board.cell motion.source).isEmpty = false

theorem Occupied.start {engine : GameEngine} (h : engine.Occupied) {motion : Motion}
    (hmotion : (engine.board.cell motion.source).isEmpty = false) (event : GameEvent) :
    (engine.start motion event).Occupied :=
  forall_mem_start h hmotion

theorem Occupied.requestMove {engine : GameEngine} (h : engine.Occupied)
    (fromPos toPos : Position) : (engine.requestMove fromPos toPos).2.Occupied :=
  requestMove_induction
    (fun haccepted ↦ h.start (validated_of_validateMove haccepted.valid).occupied _) h

theorem Occupied.advanceTime {engine : GameEngine} (h : engine.Occupied)
    (hlife : engine.Lifecycle) (ms : ℤ) : (engine.advanceTime ms).Occupied := by
  have hafter : (engine.afterArrivals ms).Occupied := by
    intro motion hmotion
    rw [activeMotions_afterArrivals, List.mem_filter] at hmotion
    have hpast : motion ∉ engine.completing ms := by
      intro hmem
      simp [(mem_completing.1 hmem).2.2] at hmotion
    rw [(sameKinds_afterArrivals engine ms).isEmpty]
    apply (hlife.frame_arrivalTick ms).occupied
    · exact hlife.unvacated (List.append_nil _).symm hmotion.1 hpast
    · rw [(sameKinds_arrivalStart engine ms).isEmpty]
      exact h motion hmotion.1
  have hpremoves := processPremoves_induction (P := Occupied) (fun _ _ hclear ↦ hclear)
    (fun _ fromPos toPos hrequest ↦ hrequest.requestMove fromPos toPos) hafter
    (engine.completing ms)
  intro motion hmotion
  rw [advanceTime_eq] at hmotion ⊢
  rw [activeMotions, arbiter_applyCooldown] at hmotion
  rw [(sameKinds_applyCooldown _ _).isEmpty]
  exact hpremoves motion hmotion

theorem Occupied.step {engine : GameEngine} (h : engine.Occupied) (hlife : engine.Lifecycle)
    (op : Op) : (engine.step op).Occupied :=
  step_induction
    (fun _ _ haccepted ↦ h.start (validated_of_validateMove haccepted.valid).occupied _)
    (fun _ haccepted ↦ h.start haccepted.occupied _) (fun _ _ _ ↦ h)
    (fun ms ↦ h.advanceTime hlife ms) (fun _ _ ↦ h) h

/-- In a reachable state the lifecycle invariant holds and no motion runs from an empty square. -/
theorem Reachable.lifecycle_occupied {engine : GameEngine} (h : Reachable engine) :
    engine.Lifecycle ∧ engine.Occupied :=
  h.invariant (P := fun engine ↦ engine.Lifecycle ∧ engine.Occupied)
    (fun _ ⟨before, hbefore⟩ ↦
      hbefore ▸ ⟨lifecycle_reset before, fun _ hmem ↦ absurd hmem List.not_mem_nil⟩)
    fun _ op hengine ↦ ⟨hengine.1.step op, hengine.2.step hengine.1 op⟩

/-! ## Recaptures -/

/-- The piece of the running move `motion` has been captured on its source square, and `captor`,
which completes in this call, is about to take the square back with a piece of the same colour that
will have the type recorded in `motion`. -/
structure Recaptures (engine : GameEngine) (motion captor : Motion) : Prop where
  captured : Enemy (engine.board.cell motion.source) motion.pieceColor
  valid : captor.Valid engine.board
  square : captor.destination = motion.source
  color : captor.pieceColor = motion.pieceColor
  type : landedType engine.board captor = motion.pieceType

instance (engine : GameEngine) (motion captor : Motion) :
    Decidable (engine.Recaptures motion captor) :=
  decidable_of_iff (Enemy (engine.board.cell motion.source) motion.pieceColor ∧
      captor.Valid engine.board ∧ captor.destination = motion.source ∧
      captor.pieceColor = motion.pieceColor ∧
      landedType engine.board captor = motion.pieceType)
    ⟨fun ⟨captured, valid, square, color, type⟩ ↦ ⟨captured, valid, square, color, type⟩,
      fun h ↦ ⟨h.captured, h.valid, h.square, h.color, h.type⟩⟩

/-- No completing move recaptures the source of a running move. -/
def NoRecapture (engine : GameEngine) (ms : ℕ) : Prop :=
  ∀ motion ∈ engine.activeMotions, motion.type = .move →
    ∀ captor ∈ engine.completing ms, ¬ engine.Recaptures motion captor

instance (engine : GameEngine) (ms : ℕ) : Decidable (engine.NoRecapture ms) :=
  inferInstanceAs (Decidable (∀ motion ∈ engine.activeMotions, motion.type = .move →
    ∀ captor ∈ engine.completing ms, ¬ engine.Recaptures motion captor))

/-- A landing on the source of a running move that makes the move valid is a recapture. -/
theorem Lifecycle.recaptures_of_landed {engine : GameEngine} (hlife : engine.Lifecycle)
    (hoccupied : engine.Occupied) {ms : ℤ} {past future : List Motion} {motion captor : Motion}
    (hsplit : engine.completing ms = past ++ captor :: future)
    (hmotion : motion ∈ engine.activeMotions) (hpast : motion ∉ past)
    (hcaptor : captor.source ∉ (engine.turn ms captor).arrivedThisTick)
    (hresult : engine.result ms captor = .landed) (hsquare : captor.destination = motion.source)
    (hvalid : motion.Valid ((engine.turn ms captor).settle captor .landed).board) :
    engine.Recaptures motion captor := by
  have hcompleting : captor ∈ engine.completing ms := by simp [hsplit]
  have hactive := (mem_completing.1 hcompleting).1
  have hframe := hlife.frame_turn hsplit
  have hstart := sameKinds_arrivalStart engine ms
  have hcaptorValid := valid_of_landed hresult
  have hsource := hlife.unvacated hsplit hmotion hpast
  have hfull : ((engine.turn ms captor).board.cell motion.source).isEmpty = false := by
    apply hframe.occupied hsource
    rw [hstart.isEmpty]
    exact hoccupied motion hmotion
  obtain ⟨henemy, hunarrived⟩ := enemy_of_landed hresult (hsquare ▸ hfull)
  rw [hsquare] at henemy hunarrived
  have hcell := hframe.untouched motion.source hsource hunarrived
  have hcaptorCell := hframe.untouched captor.source
    (hlife.unvacated hsplit hactive (hlife.notMem_past hsplit)) hcaptor
  have hlanded := landedPiece_is hcaptorValid
  rw [Motion.Valid, ← hsquare, cell_settle_landed (hlife.onBoard_turn hsplit)] at hvalid
  have hcolor : captor.pieceColor = motion.pieceColor := hlanded.2.2.symm.trans hvalid.2.2
  rw [hcell] at henemy
  exact
    { captured := ⟨(hstart.isEmpty _).symm.trans henemy.1,
        (hstart.color _).symm.trans (hcolor ▸ henemy.2)⟩
      valid := by
        rw [← hstart.valid]
        rwa [Motion.Valid, hcaptorCell] at hcaptorValid
      square := hsquare
      color := hcolor
      type := by
        rw [← landedType_congr hframe.rows]
        exact hlanded.2.1.symm.trans hvalid.2.1 }

/-- Without recaptures, a square on which a piece has landed during the call matches no move that
is still to start from it. -/
theorem Lifecycle.unrevived {engine : GameEngine} (hlife : engine.Lifecycle)
    (hoccupied : engine.Occupied) {ms : ℕ} (hrecapture : engine.NoRecapture ms) :
    (∀ past next future, engine.completing ms = past ++ next :: future →
      ∀ motion ∈ engine.activeMotions, motion.type = .move → motion ∉ past →
        motion.Valid (engine.turn ms next).board →
          motion.source ∉ (engine.turn ms next).arrivedThisTick) ∧
      ∀ motion ∈ engine.activeMotions, motion.type = .move → motion ∉ engine.completing ms →
        motion.Valid (engine.arrivalTick ms).board →
          motion.source ∉ (engine.arrivalTick ms).arrivedThisTick := by
  refine hlife.turns ms (I := fun past tick ↦ ∀ motion ∈ engine.activeMotions,
    motion.type = .move → motion ∉ past → motion.Valid tick.board →
      motion.source ∉ tick.arrivedThisTick) (fun _ _ _ _ _ hmem ↦ List.not_mem_nil hmem) ?_
  intro past captor future hsplit hon hpast motion hmotion htype hnot hvalid harrived
  rw [List.mem_append, List.mem_singleton, not_or] at hnot
  have hcompleting : captor ∈ engine.completing ms := by simp [hsplit]
  obtain ⟨hcaptor, hcaptorType, -⟩ := mem_completing.1 hcompleting
  rw [mem_arrived_settle] at harrived
  by_cases hlanded : engine.result ms captor = .landed ∧ motion.source = captor.destination
  · obtain ⟨hresult, hsquare⟩ := hlanded
    have hcaptorSource := hpast captor hcaptor hcaptorType (hlife.notMem_past hsplit)
      (valid_of_landed hresult)
    rw [hresult] at hvalid
    exact hrecapture motion hmotion htype captor hcompleting
      (hlife.recaptures_of_landed hoccupied hsplit hmotion hnot.1 hcaptorSource hresult
        hsquare.symm hvalid)
  · have hsource : motion.source ≠ captor.source :=
      fun heq ↦ hnot.2 (hlife.eq_of_source_eq hmotion hcaptor heq)
    rw [Motion.Valid, cell_settle_of_ne hon (fun heq ↦ absurd heq.symm hsource)
      fun hresult heq ↦ hlanded ⟨hresult, heq⟩] at hvalid
    exact hpast motion hmotion htype hnot.1 hvalid (harrived.resolve_right hlanded)

/-- Without recaptures, a move that fits the piece on its source at its turn finds there what the
call found there. -/
theorem Lifecycle.valid_of_turn {engine : GameEngine} (hlife : engine.Lifecycle)
    (hoccupied : engine.Occupied) {ms : ℕ} (hrecapture : engine.NoRecapture ms) {motion : Motion}
    (hmem : motion ∈ engine.completing ms)
    (hvalid : motion.Valid (engine.turn ms motion).board) : motion.Valid engine.board := by
  obtain ⟨past, future, hsplit⟩ := List.append_of_mem hmem
  obtain ⟨hactive, htype, -⟩ := mem_completing.1 hmem
  have hpast := hlife.notMem_past hsplit
  have harrived := (hlife.unrevived hoccupied hrecapture).1 past motion future hsplit motion hactive
    htype hpast hvalid
  rw [Motion.Valid, (hlife.frame_turn hsplit).untouched _ (hlife.unvacated hsplit hactive hpast)
    harrived] at hvalid
  exact (engine.sameKinds_arrivalStart ms).valid motion |>.1 hvalid

end GameEngine

/-! ## Runs with their history -/

/-- An engine together with its history and the history known to each motion at its start. -/
structure Tracked where
  engine : GameEngine
  occupancy : Occupancy
  startedWith : Motion → Occupancy

namespace Tracked

def ofReset (before : GameEngine) : Tracked where
  engine := before.reset
  occupancy := .initial
  startedWith := fun _ ↦ .initial

/-- The history after some of the arrivals of a call. -/
def occupancyThrough (tracked : Tracked) (ms : ℤ) (past : List Motion) : Occupancy :=
  past.foldl (fun occupancy motion ↦ occupancy.settle motion (tracked.engine.result ms motion))
    tracked.occupancy

/-- The history that the arrival of a completing move finds. -/
def occupancyAt (tracked : Tracked) (ms : ℤ) (motion : Motion) : Occupancy :=
  tracked.occupancyThrough ms (tracked.engine.resolvedBefore ms motion)

def occupancyAfter (tracked : Tracked) : Op → Occupancy
  | .advanceTime ms => tracked.occupancyThrough ms (tracked.engine.arrivals ms)
  | _ => tracked.occupancy

theorem occupancyAfter_of_ne (tracked : Tracked) {op : Op} (h : ∀ ms, op ≠ .advanceTime ms) :
    tracked.occupancyAfter op = tracked.occupancy := by
  cases op with
  | advanceTime ms => exact absurd rfl (h ms)
  | _ => rfl

/-- The engine makes its step; motions that were not active before have just been started. -/
def step (tracked : Tracked) (op : Op) : Tracked where
  engine := tracked.engine.step op
  occupancy := tracked.occupancyAfter op
  startedWith := fun motion ↦
    if motion ∈ tracked.engine.activeMotions then tracked.startedWith motion
    else tracked.occupancyAfter op

/-- The history does not influence the engine. -/
theorem engine_run (tracked : Tracked) (ops : List Op) :
    (Transition.run step tracked ops).engine = tracked.engine.run ops := by
  induction ops generalizing tracked with
  | nil => rfl
  | cons op ops ih => exact ih (tracked.step op)

/-- Every move that lands in the call moves the piece that stood on its source when it was started
and has stood there ever since. -/
def MovesOwnPieces (tracked : Tracked) (ms : ℕ) : Prop :=
  ∀ motion ∈ tracked.engine.arrivals ms, tracked.engine.result ms motion = .landed →
    (tracked.occupancyAt ms motion).SameAt (tracked.startedWith motion) motion.source

instance (tracked : Tracked) (ms : ℕ) : Decidable (tracked.MovesOwnPieces ms) :=
  inferInstanceAs (Decidable (∀ motion ∈ tracked.engine.arrivals ms, _))

/-- The invariant: a running move whose record fits the piece on its source belongs to it. -/
structure Faithful (tracked : Tracked) : Prop where
  lifecycle : tracked.engine.Lifecycle
  occupied : tracked.engine.Occupied
  own : ∀ motion ∈ tracked.engine.activeMotions, motion.type = .move →
    motion.Valid tracked.engine.board →
      tracked.occupancy.SameAt (tracked.startedWith motion) motion.source

theorem faithful_ofReset (before : GameEngine) : (ofReset before).Faithful where
  lifecycle := GameEngine.lifecycle_reset before
  occupied := fun _ hmem ↦ absurd hmem List.not_mem_nil
  own := fun _ hmem ↦ absurd hmem List.not_mem_nil

/-- The occupants of the squares that no arrival of the call has touched are the same. -/
theorem sameAt_occupancyThrough (tracked : Tracked) (hlife : tracked.engine.Lifecycle) (ms : ℤ) :
    (∀ past next future, tracked.engine.completing ms = past ++ next :: future →
      ∀ pos, tracked.engine.Unvacated ms past pos →
        pos ∉ (tracked.engine.turn ms next).arrivedThisTick →
          (tracked.occupancyThrough ms past).SameAt tracked.occupancy pos) ∧
      ∀ pos, tracked.engine.Unvacated ms (tracked.engine.completing ms) pos →
        pos ∉ (tracked.engine.arrivalTick ms).arrivedThisTick →
          (tracked.occupancyThrough ms (tracked.engine.completing ms)).SameAt
            tracked.occupancy pos := by
  refine hlife.turns ms (I := fun past tick ↦ ∀ pos, tracked.engine.Unvacated ms past pos →
    pos ∉ tick.arrivedThisTick → (tracked.occupancyThrough ms past).SameAt tracked.occupancy pos)
    (fun _ _ _ ↦ ⟨rfl, rfl⟩) ?_
  intro past motion future _ _ hpast pos hunvacated harrived
  have hsource := hunvacated motion (by simp)
  have hearlier := hunvacated.mono fun _ hmem ↦ List.mem_append_left [motion] hmem
  rw [mem_arrived_settle, not_or] at harrived
  rw [occupancyThrough, List.foldl_append]
  exact (Occupancy.sameAt_settle _ _ hsource fun hresult heq ↦ harrived.2 ⟨hresult, heq⟩).trans
    (hpast pos hearlier harrived.1)

/-- A running move that still fits the piece on its source at some turn fitted it at the start of
the call, and the occupant has not changed in between. -/
theorem Faithful.own_of_unarrived {tracked : Tracked} (h : tracked.Faithful) {ms : ℤ}
    {past : List Motion} {tick : Tick} {motion : Motion}
    (hframe : tracked.engine.Frame ms past tick)
    (hmotion : motion ∈ tracked.engine.activeMotions) (htype : motion.type = .move)
    (hsource : tracked.engine.Unvacated ms past motion.source)
    (harrived : motion.source ∉ tick.arrivedThisTick)
    (hvalid : motion.Valid tick.board)
    (hsame : (tracked.occupancyThrough ms past).SameAt tracked.occupancy motion.source) :
    (tracked.occupancyThrough ms past).SameAt (tracked.startedWith motion) motion.source := by
  refine hsame.trans (h.own motion hmotion htype ?_)
  rw [← (tracked.engine.sameKinds_arrivalStart ms).valid]
  rwa [Motion.Valid, hframe.untouched _ hsource harrived] at hvalid

theorem Faithful.movesOwnPieces {tracked : Tracked} (h : tracked.Faithful) {ms : ℕ}
    (hrecapture : tracked.engine.NoRecapture ms) : tracked.MovesOwnPieces ms := by
  intro motion hmem hresult
  rw [h.lifecycle.arrivals_eq] at hmem
  obtain ⟨past, future, hsplit⟩ := List.append_of_mem hmem
  obtain ⟨hmotion, htype, -⟩ := GameEngine.mem_completing.1 hmem
  have hpast := h.lifecycle.notMem_past hsplit
  have hvalid := GameEngine.valid_of_landed hresult
  have harrived := (h.lifecycle.unrevived h.occupied hrecapture).1 past motion future hsplit motion
    hmotion htype hpast hvalid
  have hsource := h.lifecycle.unvacated hsplit hmotion hpast
  rw [occupancyAt, h.lifecycle.resolvedBefore_eq hsplit]
  exact h.own_of_unarrived (h.lifecycle.frame_turn hsplit) hmotion htype hsource harrived hvalid
    ((tracked.sameAt_occupancyThrough h.lifecycle ms).1 past motion future hsplit _ hsource
      harrived)

/-- One step keeps the invariant, if it is not a recapture. -/
theorem Faithful.step {tracked : Tracked} (h : tracked.Faithful) {op : Op}
    (hrecapture : AtAdvance (fun tracked : Tracked ↦ tracked.engine.NoRecapture) tracked op) :
    (tracked.step op).Faithful where
  lifecycle := h.lifecycle.step op
  occupied := h.occupied.step h.lifecycle op
  own := by
    intro motion hmotion htype hvalid
    by_cases hold : motion ∈ tracked.engine.activeMotions
    swap
    · simp [Tracked.step, hold, Occupancy.SameAt]
    simp only [Tracked.step, hold, if_true]
    by_cases hadvance : ∃ ms, op = .advanceTime ms
    · obtain ⟨ms, rfl⟩ := hadvance
      have hunexpired := (h.lifecycle.step (.advanceTime ms)).unexpired motion hmotion
      have hpast : motion ∉ tracked.engine.completing ms := by
        intro hmem
        have hexpired := (GameEngine.mem_completing.1 hmem).2.2
        rw [GameEngine.step_advanceTime, GameEngine.elapsedMs_advanceTime, hexpired] at hunexpired
        exact Bool.false_ne_true hunexpired.symm
      have hvalid' : motion.Valid (tracked.engine.arrivalTick ms).board := by
        rw [← (tracked.engine.sameKinds_advanceTime ms).valid]
        exact hvalid
      have hsource := h.lifecycle.unvacated (List.append_nil _).symm hold hpast
      have harrived := (h.lifecycle.unrevived h.occupied hrecapture).2 motion hold htype hpast
        hvalid'
      rw [occupancyAfter, h.lifecycle.arrivals_eq]
      exact h.own_of_unarrived (h.lifecycle.frame_arrivalTick ms) hold htype hsource harrived
        hvalid' ((tracked.sameAt_occupancyThrough h.lifecycle ms).2 _ hsource harrived)
    · have hother : ∀ ms, op ≠ .advanceTime ms := fun ms heq ↦ hadvance ⟨ms, heq⟩
      rw [Motion.Valid, Tracked.step, GameEngine.board_step _ hother] at hvalid
      rw [tracked.occupancyAfter_of_ne hother]
      exact h.own motion hold htype hvalid

/-- In every run without recaptures each landing moves the piece that started the move. -/
theorem movesOwnPieces_of_noRecapture (before : GameEngine) (ops : List Op)
    (h : Transition.Along step (AtAdvance fun tracked ↦ tracked.engine.NoRecapture)
      (ofReset before) ops) :
    Transition.Along step (AtAdvance MovesOwnPieces) (ofReset before) ops := by
  refine Transition.Along.imp_of_invariant (I := Faithful) ?_ (faithful_ofReset before) h
  intro tracked op hfaithful hrecapture
  refine ⟨hfaithful.step hrecapture, ?_⟩
  cases op with
  | advanceTime ms => exact hfaithful.movesOwnPieces hrecapture
  | _ => trivial

/-! ## A recapture -/

/-- Two white rooks and a black one beside the square from which the first white rook starts. -/
def rooksBoard : Board where
  cells :=
    [[.of .rook .white, .empty, .empty, .empty, .empty],
     [.of .rook .black, .empty, .empty, .empty, .empty],
     [.of .rook .white, .empty, .empty, .empty, .empty]]
  rectangular := by decide

/-- The black rook captures the first white rook before it leaves, and the captor stays. -/
theorem movesOwnPieces_after_capture :
    Transition.Along step (AtAdvance MovesOwnPieces) (ofReset { board := rooksBoard })
      [.requestMove ⟨0, 0⟩ ⟨0, 4⟩, .requestMove ⟨1, 0⟩ ⟨0, 0⟩, .advanceTime 1000,
        .advanceTime 3000] :=
  movesOwnPieces_of_noRecapture _ _ (by decide)

/-- When the second white rook takes the captor, the motion of the first one moves the second. -/
theorem recapture_moves_foreign_piece :
    ¬ Transition.Along step (AtAdvance MovesOwnPieces) (ofReset { board := rooksBoard })
      [.requestMove ⟨0, 0⟩ ⟨0, 4⟩, .requestMove ⟨1, 0⟩ ⟨0, 0⟩, .advanceTime 1000,
        .requestMove ⟨2, 0⟩ ⟨0, 0⟩, .advanceTime 2000, .advanceTime 1000] := by
  decide

end Tracked

end KongFuChess.Engine
