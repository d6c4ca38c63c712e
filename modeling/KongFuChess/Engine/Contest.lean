import KongFuChess.Engine.Turns

/-!
# Moves to one square

Several moves to one square can complete in the same call. If no piece leaves the square in the
call and none is airborne there, the first of these moves that can take the square lands on it and
its piece stays; the later ones lose the tie against it or are blocked by it.
-/

namespace KongFuChess.Engine

open Model Realtime Rules Events

namespace GameEngine

/-- The move finds its piece on its source and no friend on its destination. -/
def CanTake (engine : GameEngine) (ms : ℤ) (motion : Motion) : Prop :=
  motion.Valid (engine.turn ms motion).board ∧
    ((engine.turn ms motion).board.cell motion.destination).isFriendly motion.pieceColor = false

instance (engine : GameEngine) (ms : ℤ) (motion : Motion) : Decidable (engine.CanTake ms motion) :=
  inferInstanceAs (Decidable (_ ∧ _))

/-- The first of the moves to its square that can take it. -/
structure FirstToTake (engine : GameEngine) (ms : ℤ) (motion : Motion) : Prop where
  completing : motion ∈ engine.completing ms
  canTake : engine.CanTake ms motion
  first : ∀ other ∈ engine.completing ms, other.destination = motion.destination →
    motionLess other motion = true → ¬ engine.CanTake ms other

theorem canTake_of_landed {engine : GameEngine} {ms : ℤ} {motion : Motion}
    (h : engine.result ms motion = .landed) : engine.CanTake ms motion := by
  have hspec := engine.result_spec ms motion
  rw [h] at hspec
  refine ⟨hspec.1, ?_⟩
  rw [← Bool.not_eq_true, Piece.isFriendly_iff]
  rintro ⟨hfull, hcolor⟩
  rcases hspec.2 with hempty | ⟨henemy, -⟩
  · exact Bool.false_ne_true (hfull.symm.trans hempty)
  · exact Color.ne_opposite _ (hcolor.symm.trans henemy.2)

theorem not_motionLess_of_motionLess {first second : Motion} (h : motionLess first second = true) :
    motionLess second first = false := by
  unfold motionLess at h ⊢
  split at h
  · rename_i hne
    rw [decide_eq_true_eq] at h
    rw [if_pos hne.symm, decide_eq_false_iff_not]
    omega
  · rename_i heq
    rw [decide_eq_true_eq] at h
    rw [if_neg fun hne ↦ heq hne.symm, decide_eq_false_iff_not]
    omega

variable {engine : GameEngine} {ms : ℤ} {square : Position}

/-- A move that was started before another one is resolved before it. -/
theorem Lifecycle.mem_past_of_motionLess (h : engine.Lifecycle) {past future : List Motion}
    {motion other : Motion} (hsplit : engine.completing ms = past ++ motion :: future)
    (hmem : other ∈ engine.completing ms) (hless : motionLess other motion = true) :
    other ∈ past := by
  have hnotLess := not_motionLess_of_motionLess hless
  rw [hsplit, List.mem_append, List.mem_cons] at hmem
  rcases hmem with hpast | rfl | hfuture
  · exact hpast
  · exact absurd (hless.symm.trans hnotLess) Bool.true_eq_false.mp
  · obtain ⟨before, after, rfl⟩ := List.append_of_mem hfuture
    have hsplit' : engine.completing ms = (past ++ motion :: before) ++ other :: after := by
      rw [hsplit, List.append_assoc, List.cons_append]
    have hlater : motionLess motion other = true := h.motionLess_of_split hsplit' (by simp)
    exact absurd (hlater.symm.trans hnotLess) Bool.true_eq_false.mp

/-- On a square that no piece has left, a second move does not land. -/
theorem Lifecycle.not_landed_twice (h : engine.Lifecycle) {past future : List Motion}
    {first second : Motion} (hsplit : engine.completing ms = past ++ second :: future)
    (hunvacated : engine.Unvacated ms past square)
    (hfirst : first ∈ past) (hresult : engine.result ms first = .landed)
    (hsquare : first.destination = square) (hsquare' : second.destination = square) :
    engine.result ms second ≠ .landed := by
  intro hresult'
  have harrived := ((h.mem_arrived ms).1 past second future hsplit square).2
    ⟨first, hfirst, hresult, hsquare⟩
  obtain ⟨_, _, _, _, _, his⟩ := (h.frame_turn hsplit).captured square hunvacated harrived
  exact (enemy_of_landed hresult' (hsquare' ▸ his.1)).2 (hsquare' ▸ harrived)

theorem Lifecycle.eq_of_landed (h : engine.Lifecycle) {past future : List Motion}
    (hsplit : engine.completing ms = past ++ future) (hunvacated : engine.Unvacated ms past square)
    {first second : Motion} (hfirst : first ∈ past) (hsecond : second ∈ past)
    (hresult : engine.result ms first = .landed) (hresult' : engine.result ms second = .landed)
    (hsquare : first.destination = square) (hsquare' : second.destination = square) :
    first = second := by
  obtain ⟨before, after, rfl⟩ := List.append_of_mem hsecond
  rw [List.mem_append, List.mem_cons] at hfirst
  rcases hfirst with hbefore | heq | hafter
  · have hsplit' : engine.completing ms = before ++ second :: (after ++ future) := by
      rw [hsplit, List.append_assoc, List.cons_append]
    exact absurd hresult' (h.not_landed_twice hsplit'
      (hunvacated.mono fun _ ↦ List.mem_append_left _) hbefore hresult hsquare hsquare')
  · exact heq
  · obtain ⟨between, last, rfl⟩ := List.append_of_mem hafter
    have hsplit' : engine.completing ms =
        (before ++ second :: between) ++ first :: (last ++ future) := by
      rw [hsplit]
      simp
    refine absurd hresult (h.not_landed_twice hsplit' (hunvacated.mono fun motion hmem ↦ ?_)
      (by simp) hresult' hsquare' hsquare)
    simp only [List.mem_append, List.mem_cons] at hmem ⊢
    tauto

/-- No piece leaves a square from which no completing move sets out. -/
theorem unvacated_of_forall (hstays : ∀ motion ∈ engine.completing ms, motion.source ≠ square) :
    engine.Unvacated ms (engine.completing ms) square :=
  fun motion hmem heq ↦ absurd heq (hstays motion hmem)

/-- A piece that lands on a square which no piece leaves stays there through all later turns. -/
theorem Lifecycle.cell_of_landed (h : engine.Lifecycle)
    (hstays : ∀ motion ∈ engine.completing ms, motion.source ≠ square) {mover : Motion}
    (hmover : mover ∈ engine.completing ms) (hresult : engine.result ms mover = .landed)
    (hsquare : mover.destination = square) :
    (∀ past motion future, engine.completing ms = past ++ motion :: future → mover ∈ past →
      (engine.turn ms motion).board.cell square = landedPiece (engine.turn ms mover).board mover) ∧
      (engine.arrivalTick ms).board.cell square =
        landedPiece (engine.turn ms mover).board mover := by
  have hturns := h.turns ms (I := fun past tick ↦ mover ∈ past →
    tick.board.cell square = landedPiece (engine.turn ms mover).board mover)
    (fun hmem ↦ absurd hmem List.not_mem_nil) ?_
  · exact ⟨hturns.1, hturns.2 hmover⟩
  · intro past motion future hsplit hon hpast hmem
    have hmotion : motion ∈ engine.completing ms := by simp [hsplit]
    by_cases heq : motion = mover
    · rw [heq] at hon
      rw [heq, hresult, ← hsquare]
      exact cell_settle_landed hon
    · rw [List.mem_append, List.mem_singleton] at hmem
      rw [cell_settle_of_ne hon (fun hsource ↦ absurd hsource (hstays motion hmotion))]
      · exact hpast (hmem.resolve_right fun hsame ↦ heq hsame.symm)
      · intro hlanded hsquare'
        exact heq (h.eq_of_landed (List.append_nil _).symm (unvacated_of_forall hstays) hmotion
          hmover hlanded hresult hsquare'.symm hsquare)

/-! ## The first move that can take the square -/

section First

variable {winner : Motion} (hlife : engine.Lifecycle)
  (hstays : ∀ motion ∈ engine.completing ms, motion.source ≠ winner.destination)
  (hwinner : engine.FirstToTake ms winner)
include hlife hstays hwinner

/-- Nothing has happened on the square before. -/
theorem FirstToTake.cell_turn :
    winner.destination ∉ (engine.turn ms winner).arrivedThisTick ∧
      (engine.turn ms winner).board.cell winner.destination =
        (engine.arrivalStart ms).board.cell winner.destination := by
  obtain ⟨past, future, hsplit⟩ := List.append_of_mem hwinner.completing
  have hpast : ∀ motion ∈ past, motion ∈ engine.completing ms := fun motion ↦
    mem_completing_of_past hsplit
  have hunarrived : winner.destination ∉ (engine.turn ms winner).arrivedThisTick := by
    rw [(hlife.mem_arrived ms).1 past winner future hsplit]
    rintro ⟨mover, hmem, hresult, hsquare⟩
    exact hwinner.first mover (hpast mover hmem) hsquare (hlife.motionLess_of_split hsplit hmem)
      (canTake_of_landed hresult)
  exact ⟨hunarrived, (hlife.frame_turn hsplit).untouched _
    (fun motion hmem heq ↦ absurd heq (hstays motion (hpast motion hmem))) hunarrived⟩

theorem FirstToTake.result_eq
    (hjump : isJumpActiveAt engine.activeMotions winner.destination = false) :
    engine.result ms winner = .landed := by
  obtain ⟨hvalid, hfriendly⟩ := hwinner.canTake
  exact landed_of_unopposed hvalid hfriendly hjump (hwinner.cell_turn hlife hstays).1

/-- The move is reported with the occupant that the call has found. -/
theorem FirstToTake.completedMoveOf_turn :
    completedMoveOf (engine.turn ms winner).board winner = completedMoveOf engine.board winner := by
  apply completedMoveOf_congr
  rw [(hwinner.cell_turn hlife hstays).2]
  exact (engine.sameKinds_arrivalStart ms).kind _

/-- A later move to the square finds the piece of the first one there. -/
theorem FirstToTake.found_later
    (hjump : isJumpActiveAt engine.activeMotions winner.destination = false) {later : Motion}
    (hlater : later ∈ engine.completing ms) (hless : motionLess winner later = true) :
    winner.destination ∈ (engine.turn ms later).arrivedThisTick ∧
      ((engine.turn ms later).board.cell winner.destination).Is (landedType engine.board winner)
        winner.pieceColor := by
  obtain ⟨past, future, hsplit⟩ := List.append_of_mem hlater
  have hmem := hlife.mem_past_of_motionLess hsplit hwinner.completing hless
  have hresult := hwinner.result_eq hlife hstays hjump
  refine ⟨((hlife.mem_arrived ms).1 past later future hsplit _).2 ⟨winner, hmem, hresult, rfl⟩, ?_⟩
  rw [(hlife.cell_of_landed hstays hwinner.completing hresult rfl).1 past later future hsplit hmem]
  obtain ⟨before, after, hsplit'⟩ := List.append_of_mem hwinner.completing
  rw [← landedType_congr (hlife.frame_turn hsplit').rows]
  exact landedPiece_is hwinner.canTake.1

theorem FirstToTake.result_of_later
    (hjump : isJumpActiveAt engine.activeMotions winner.destination = false) {later : Motion}
    (hlater : later ∈ engine.completing ms) (hsquare : later.destination = winner.destination)
    (hless : motionLess winner later = true) (hvalid : later.Valid (engine.turn ms later).board) :
    engine.result ms later =
      if later.pieceColor = winner.pieceColor then .blocked else .lostTie := by
  obtain ⟨harrived, his⟩ := hwinner.found_later hlife hstays hjump hlater hless
  rw [← hsquare] at harrived his hjump
  have hspec := engine.result_spec ms later
  have hfriendly : ((engine.turn ms later).board.cell later.destination).isFriendly
      later.pieceColor = true ↔ winner.pieceColor = later.pieceColor := by
    rw [Piece.isFriendly_iff, his.2.2]
    exact and_iff_right his.1
  cases hresult : engine.result ms later with
  | stale =>
    rw [hresult] at hspec
    exact absurd hvalid hspec
  | blocked =>
    rw [hresult] at hspec
    rw [if_pos (hfriendly.1 hspec.2).symm]
  | jumpCaptured =>
    rw [hresult] at hspec
    exact absurd (hspec.2.2.symm.trans hjump) Bool.true_eq_false.mp
  | lostTie =>
    rw [hresult] at hspec
    have hopposite : winner.pieceColor = later.pieceColor.opposite :=
      his.2.2.symm.trans hspec.2.1.2
    rw [if_neg]
    intro hcolor
    exact Color.ne_opposite _ (hcolor.trans hopposite)
  | landed => exact absurd harrived (enemy_of_landed hresult his.1).2

end First

/-! ## What a call tells -/

/-- The log of a call is written from its resolutions. -/
theorem moveLog_of_resolutions (engine : GameEngine) (ms : ℤ) :
    (engine.advanceTime ms).moveLog =
      (engine.arrivalTick ms).resolutions.foldl MoveLog.record engine.moveLog := by
  rw [moveLog_advanceTime, moveLog_afterArrivals]

/-- From one state to the other, events of this kind have been published and no others. -/
def Publishes (before after : GameEngine) (kind : GameEvent → Prop) : Prop :=
  ∃ events : List GameEvent, after.eventBus = before.eventBus.map (· ++ events) ∧
    ∀ event ∈ events, kind event

theorem Publishes.refl (engine : GameEngine) (kind : GameEvent → Prop) :
    engine.Publishes engine kind :=
  ⟨[], by simp, fun _ hevent ↦ absurd hevent List.not_mem_nil⟩

theorem Publishes.concat {before after last : GameEngine} {kind : GameEvent → Prop}
    (h : before.Publishes after kind) {event : GameEvent} (hkind : kind event)
    (hbus : last.eventBus = after.eventBus.map (· ++ [event])) : before.Publishes last kind := by
  obtain ⟨events, hevents, hkinds⟩ := h
  refine ⟨events ++ [event], ?_, ?_⟩
  · rw [hbus, hevents, Option.map_map]
    simp only [Function.comp_def, List.append_assoc]
  · intro other hother
    rcases List.mem_append.1 hother with hold | hnew
    · exact hkinds other hold
    · rwa [List.mem_singleton.1 hnew]

theorem publishes_checkGameOver (engine : GameEngine) (completing : List Motion) :
    engine.Publishes (engine.checkGameOverFromCompletingMoves completing)
      (∃ ended, · = .gameEnded ended) := by
  have hrefl := Publishes.refl engine (∃ ended, · = .gameEnded ended)
  apply checkGameOver_induction (P := fun later ↦ engine.Publishes later _)
  · exact fun winnerColor ↦ hrefl.concat ⟨⟨winnerColor⟩, rfl⟩ rfl
  · exact hrefl

theorem publishes_processPremoves (engine : GameEngine) (completing : List Motion) :
    engine.Publishes (engine.processPremovesAfterAdvance completing)
      (∃ started, · = .moveStarted started) := by
  apply processPremoves_induction (P := fun later ↦ engine.Publishes later _)
  · exact fun _ _ hlater ↦ hlater
  · intro later fromPos toPos hlater
    apply requestMove_induction (P := fun next ↦ engine.Publishes next _)
    · exact fun _ ↦ hlater.concat ⟨_, rfl⟩ (eventBus_start ..)
    · exact hlater
  · exact .refl engine _

/-- The events of a call are those of its resolutions, between a verdict and the moves started by
premoves. -/
theorem eventBus_of_resolutions (engine : GameEngine) (ms : ℤ) :
    ∃ verdicts starts : List GameEvent,
      (engine.advanceTime ms).eventBus = engine.eventBus.map (· ++ (verdicts ++
        ((engine.arrivalTick ms).resolutions.map GameEvent.ofResolution ++ starts))) ∧
      (∀ event ∈ verdicts, ∃ ended, event = .gameEnded ended) ∧
      ∀ event ∈ starts, ∃ started, event = .moveStarted started := by
  obtain ⟨verdicts, hverdicts, hended⟩ := engine.publishes_checkGameOver (engine.completing ms)
  obtain ⟨starts, hstarts, hstarted⟩ :=
    (engine.afterArrivals ms).publishes_processPremoves (engine.completing ms)
  refine ⟨verdicts, starts, ?_, hended, hstarted⟩
  rw [advanceTime_eq, eventBus_applyCooldown, hstarts, eventBus_afterArrivals, hverdicts,
    Option.map_map, Option.map_map]
  simp only [Function.comp_def, List.append_assoc]

/-- A completed move to the square. -/
def isCompletedTo (square : Position) : MoveResolution → Bool
  | .completedMove completed => completed.toPos = square
  | .jumpCapture _ => false

/-- On a square that no piece leaves, at most one move is completed. -/
theorem Lifecycle.countP_completedTo (h : engine.Lifecycle)
    (hstays : ∀ motion ∈ engine.completing ms, motion.source ≠ square) :
    (engine.arrivalTick ms).resolutions.countP (isCompletedTo square) ≤ 1 := by
  have hlanded : ∀ motion, (engine.emittedAt ms motion).countP (isCompletedTo square) =
      if engine.result ms motion = .landed ∧ motion.destination = square then 1 else 0 := by
    intro motion
    unfold emittedAt
    cases engine.result ms motion with
    | stale | blocked | jumpCaptured | lostTie => rfl
    | landed => simp [emitted, isCompletedTo, completedMoveOf, List.countP_cons]
  have hcount : ∀ motions : List Motion, (∀ motion ∈ motions, motion ∈ engine.completing ms) →
      motions.Nodup →
      (motions.flatMap (engine.emittedAt ms)).countP (isCompletedTo square) ≤ 1 := by
    intro motions hmem hnodup
    induction motions with
    | nil => exact Nat.zero_le 1
    | cons motion rest ih =>
      rw [List.nodup_cons] at hnodup
      have hrest := ih (fun other hother ↦ hmem other (List.mem_cons_of_mem _ hother)) hnodup.2
      rw [List.flatMap_cons, List.countP_append, hlanded]
      split
      · rename_i hmotion
        have hzero : (rest.flatMap (engine.emittedAt ms)).countP (isCompletedTo square) = 0 := by
          rw [List.countP_flatMap, List.sum_eq_zero]
          intro count hcount
          obtain ⟨other, hother, rfl⟩ := List.mem_map.1 hcount
          rw [Function.comp_apply, hlanded, if_neg]
          rintro ⟨hresult, hsquare⟩
          have heq := h.eq_of_landed (List.append_nil _).symm (unvacated_of_forall hstays)
            (hmem motion (List.mem_cons_self ..)) (hmem other (List.mem_cons_of_mem _ hother))
            hmotion.1 hresult hmotion.2 hsquare
          exact hnodup.1 (heq ▸ hother)
        rw [hzero]
      · rwa [Nat.zero_add]
  rw [h.resolutions_eq]
  exact hcount _ (fun _ hmem ↦ hmem) (h.nodup_completing ms).of_map

/-- What the first move that can take a square does there, and what becomes of the others. -/
structure Wins (engine : GameEngine) (ms : ℤ) (winner : Motion) : Prop where
  /-- It captures what the call found on the square. -/
  completed : .completedMove (completedMoveOf engine.board winner) ∈
    (engine.arbiter.advanceTime ms engine.board).2.2
  /-- Its piece is the one on the square after the arrivals and, up to cooldowns, after the call. -/
  stands : (engine.arrivalTick ms).board.cell winner.destination =
    landedPiece (engine.turn ms winner).board winner
  shown : ((engine.advanceTime ms).board.cell winner.destination).Is
    (landedType engine.board winner) winner.pieceColor
  enemyRemoved : ∀ later ∈ engine.completing ms, later.destination = winner.destination →
    motionLess winner later = true → later.Valid (engine.turn ms later).board →
      later.pieceColor ≠ winner.pieceColor →
        resolveMoveArrival engine.activeMotions (engine.turn ms later) later =
            { engine.turn ms later with
              board := (engine.turn ms later).board.removePieceAt later.source } ∧
          ∀ resolution ∈ (engine.arbiter.advanceTime ms engine.board).2.2,
            resolutionSource resolution ≠ later.source
  friendStays : ∀ later ∈ engine.completing ms, later.destination = winner.destination →
    motionLess winner later = true → later.Valid (engine.turn ms later).board →
      later.pieceColor = winner.pieceColor →
        resolveMoveArrival engine.activeMotions (engine.turn ms later) later =
          engine.turn ms later

theorem FirstToTake.wins {winner : Motion} (hwinner : engine.FirstToTake ms winner)
    (hlife : engine.Lifecycle)
    (hstays : ∀ motion ∈ engine.completing ms, motion.source ≠ winner.destination)
    (hjump : isJumpActiveAt engine.activeMotions winner.destination = false) :
    engine.Wins ms winner := by
  have hresult := hwinner.result_eq hlife hstays hjump
  have hcell := (hlife.cell_of_landed hstays hwinner.completing hresult rfl).2
  have hmem := hwinner.completing
  obtain ⟨past, future, hsplit⟩ := List.append_of_mem hmem
  have hlater : ∀ later ∈ engine.completing ms,
      later.OnBoard (engine.turn ms later).board := by
    intro later hlater
    obtain ⟨before, after, hsplit'⟩ := List.append_of_mem hlater
    exact hlife.onBoard_turn hsplit'
  constructor
  · rw [resolutions_advanceTime, hlife.resolutions_eq, List.mem_flatMap]
    refine ⟨winner, hmem, ?_⟩
    rw [emittedAt, hresult, ← hwinner.completedMoveOf_turn hlife hstays]
    exact List.mem_singleton_self _
  · exact hcell
  · apply Piece.Is.of_kind_eq ((engine.sameKinds_advanceTime ms).kind _)
    rw [hcell, ← landedType_congr (hlife.frame_turn hsplit).rows]
    exact landedPiece_is hwinner.canTake.1
  · intro later hmem' hsquare hless hvalid hcolor'
    have hlost := hwinner.result_of_later hlife hstays hjump hmem' hsquare hless hvalid
    rw [if_neg hcolor'] at hlost
    constructor
    · rw [resolveMoveArrival_eq_settle _ _ (hlater later hmem'), ← result, hlost]
      rfl
    · intro resolution hresolution heq
      have hnone := hlife.resolutions_of_source hmem'
      rw [emittedAt, hlost, emitted, List.filter_eq_nil_iff] at hnone
      exact hnone resolution hresolution (decide_eq_true heq)
  · intro later hmem' hsquare hless hvalid hcolor'
    have hblocked := hwinner.result_of_later hlife hstays hjump hmem' hsquare hless hvalid
    rw [if_pos hcolor'] at hblocked
    rw [resolveMoveArrival_eq_settle _ _ (hlater later hmem'), ← result, hblocked]
    rfl

/-- On a square that no completing move leaves and on which no jump is active, the first of the
moves that can take it wins it, and at most one move to it is completed. -/
theorem first_to_take_wins (before : GameEngine) (ops : List Op) (ms : ℕ) (square : Position)
    (hstays : ∀ motion ∈ (before.reset.run ops).completing ms, motion.source ≠ square)
    (hjump : isJumpActiveAt (before.reset.run ops).activeMotions square = false) :
    (∀ winner, winner.destination = square → (before.reset.run ops).FirstToTake ms winner →
        (before.reset.run ops).Wins ms winner) ∧
      ((before.reset.run ops).arbiter.advanceTime ms
        (before.reset.run ops).board).2.2.countP (isCompletedTo square) ≤ 1 ∧
      ((before.reset.run ops).advanceTime ms).moveLog =
        ((before.reset.run ops).arbiter.advanceTime ms
          (before.reset.run ops).board).2.2.foldl MoveLog.record (before.reset.run ops).moveLog ∧
      ∃ verdicts starts : List GameEvent,
        ((before.reset.run ops).advanceTime ms).eventBus =
          (before.reset.run ops).eventBus.map (· ++ (verdicts ++
            (((before.reset.run ops).arbiter.advanceTime ms
              (before.reset.run ops).board).2.2.map GameEvent.ofResolution ++ starts))) ∧
        (∀ event ∈ verdicts, ∃ ended, event = .gameEnded ended) ∧
        ∀ event ∈ starts, ∃ started, event = .moveStarted started := by
  have hlife := (reachable_run before ops).lifecycle
  refine ⟨?_, hlife.countP_completedTo hstays, moveLog_of_resolutions _ _,
    eventBus_of_resolutions _ _⟩
  rintro winner rfl hwinner
  exact hwinner.wins hlife hstays hjump

/-- Two rooks at the same distance from the corner between them. -/
def cornerBoard : Board where
  cells :=
    [[.of .rook .white, .empty, .empty],
     [.empty, .empty, .empty],
     [.empty, .empty, .of .rook .black]]
  rectangular := by decide

def firstToCorner : Motion where
  motionId := 0
  source := ⟨0, 0⟩
  destination := ⟨0, 2⟩
  type := .move
  startedAtMs := 0
  durationMs := 2000
  pieceType := .rook
  pieceColor := .white

/-- Both rooks go to the corner, and the white one, ordered first, wins it. -/
theorem wins_firstToCorner :
    ((reset { board := cornerBoard }).run
      [.requestMove ⟨0, 0⟩ ⟨0, 2⟩, .requestMove ⟨2, 2⟩ ⟨0, 2⟩]).Wins (2000 : ℕ) firstToCorner :=
  (first_to_take_wins { board := cornerBoard }
      [.requestMove ⟨0, 0⟩ ⟨0, 2⟩, .requestMove ⟨2, 2⟩ ⟨0, 2⟩] 2000 ⟨0, 2⟩ (by decide)
      (by decide)).1 firstToCorner rfl ⟨by decide, by decide, by decide⟩

end GameEngine

end KongFuChess.Engine
