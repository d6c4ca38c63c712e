import KongFuChess.Engine.Airborne
import KongFuChess.Engine.Independence

/-!
# Cutting the elapsed time into calls

One call of `advanceTime` resolves all its arrivals in the order in which the moves were started,
counts every jump that was active when the call began, and lets no second enemy take a square. Two
calls that cover the same time resolve the arrivals of the first call first, and the second call
knows neither the jumps that have ended nor the squares reached in the first one.

Both lead to the same board and to the same log if none of the three differences matters. The
proof first exchanges arrivals of the single call until those of the first call come first, and
then follows the remaining ones in both executions.
-/

namespace KongFuChess.Engine

open Model Realtime Rules Events

namespace GameEngine

/-- The moves that complete in the second of two calls. -/
def completingLater (engine : GameEngine) (first second : ℤ) : List Motion :=
  (engine.completing (first + second)).filter fun motion ↦
    !motion.isExpired (engine.elapsedMs + first)

theorem mem_completingLater {engine : GameEngine} {first second : ℤ} {motion : Motion} :
    motion ∈ engine.completingLater first second ↔
      motion ∈ engine.completing (first + second) ∧
        motion.isExpired (engine.elapsedMs + first) = false := by
  simp [completingLater]

/-- The moves that complete in the first call also complete in the single call. -/
theorem completing_eq_filter (engine : GameEngine) (first : ℤ) {second : ℤ}
    (hsecond : 0 ≤ second) :
    engine.completing first = (engine.completing (first + second)).filter fun motion ↦
      motion.isExpired (engine.elapsedMs + first) := by
  simp only [completing, completingMoves, List.filter_filter]
  apply List.filter_congr
  intro motion _
  cases hexpired : motion.isExpired (engine.elapsedMs + first) with
  | false => simp
  | true =>
    have hlater : motion.isExpired (engine.elapsedMs + (first + second)) = true := by
      rw [isExpired_iff] at hexpired ⊢
      omega
    simp [hlater]

theorem completing_advanceTime {engine : GameEngine}
    (hpremoves : ∀ source, engine.premoves source = none) (first second : ℤ) :
    (engine.advanceTime first).completing second = engine.completingLater first second := by
  simp only [completing, completingLater, completingMoves, elapsedMs_advanceTime,
    activeMotions_advanceTime_of_none hpremoves, List.filter_filter, add_assoc]
  exact List.filter_congr fun motion _ ↦ Bool.and_comm ..

/-! ## The arrivals of the first call first -/

theorem Lifecycle.arrivalTick_eq_run {engine : GameEngine} (h : engine.Lifecycle) (ms : ℤ) :
    engine.arrivalTick ms =
      Transition.run (arrive engine.activeMotions) (engine.arrivalStart ms)
        (engine.completing ms) :=
  h.orderly.arrivalTick_eq_run ms

/-- The single call, with the arrivals of the first call first. -/
def middleTick (engine : GameEngine) (first second : ℤ) : Tick :=
  Transition.run (arrive engine.activeMotions) (engine.arrivalStart (first + second))
    (engine.completing first)

def lateTick (engine : GameEngine) (first second : ℤ) : Tick :=
  Transition.run (arrive engine.activeMotions) (engine.middleTick first second)
    (engine.completingLater first second)

section Split

variable {engine : GameEngine} {first second : ℤ}
  {Similar : List MoveResolution → List MoveResolution → Prop}

/-- Arrivals of the first call that can be exchanged with those they overtake come first. -/
theorem Lifecycle.alike_lateTick (h : engine.Lifecycle) (hsecond : 0 ≤ second)
    (hsimilar : Equivalence Similar)
    (happend : ∀ left right suffix, Similar left right → Similar (left ++ suffix) (right ++ suffix))
    (hcomm : ∀ early ∈ engine.completing first, ∀ late ∈ engine.completingLater first second,
      motionLess late early = true → ∀ tick,
        Alike Similar (arrive engine.activeMotions (arrive engine.activeMotions tick late) early)
          (arrive engine.activeMotions (arrive engine.activeMotions tick early) late)) :
    Alike Similar (engine.arrivalTick (first + second)) (engine.lateTick first second) := by
  rw [h.arrivalTick_eq_run, lateTick, middleTick, engine.completing_eq_filter first hsecond]
  refine Transition.run_partition (Alike.equivalence hsimilar)
    (fun motion left right ↦ Alike.arrive happend _ motion left right) _ ?_ _
  have hordered := h.ordered.sublist (List.filter_sublist (p := fun motion ↦
    motion.type = .move && motion.isExpired (engine.elapsedMs + (first + second))))
  change (engine.completing (first + second)).Pairwise _ at hordered
  refine hordered.imp_of_mem fun {late early} hlate hearly hless hnot hexpired ↦ ?_
  refine hcomm early ?_ late (mem_completingLater.2 ⟨hlate, hnot⟩) hless
  rw [engine.completing_eq_filter first hsecond]
  exact List.mem_filter.2 ⟨hearly, hexpired⟩

/-- After the arrivals of the first call both executions have reached the same tick. -/
theorem Lifecycle.alike_middleTick (h : engine.Lifecycle) (first second : ℤ) :
    Alike Eq (engine.middleTick first second) (engine.arrivalTick first) := by
  rw [h.arrivalTick_eq_run, middleTick]
  refine Transition.run_congr (fun motion left right ↦
    Alike.arrive (fun _ _ suffix heq ↦ congrArg (· ++ suffix) heq) _ motion left right) ?_ _
  exact
    { board := (engine.sameKinds_arrivalStart _).trans (engine.sameKinds_arrivalStart _).symm
      arrived := fun _ ↦ Iff.rfl
      resolutions := rfl }

end Split

/-! ## The remaining arrivals -/

/-- The moves that complete in the second of two calls do not depend on what the single call knows
of the first one. -/
structure Separate (engine : GameEngine) (first second : ℤ) : Prop where
  /-- No late move goes to a square that an enemy reaches in the first call. -/
  arrivals : ∀ early ∈ engine.completing first, ∀ late ∈ engine.completingLater first second,
    late.destination = early.destination → late.pieceColor = early.pieceColor
  /-- No late move attacks a piece whose jump ends in the first call. -/
  jumps : ∀ jump ∈ engine.activeMotions, jump.type = .jump →
    jump.isExpired (engine.elapsedMs + first) = true →
      ∀ late ∈ engine.completingLater first second, late.destination = jump.source →
        late.pieceColor = jump.pieceColor
  /-- A move that overtakes a late move shares no square with it. -/
  overtaken : ∀ early ∈ engine.completing first, ∀ late ∈ engine.completingLater first second,
    motionLess late early = true → Apart early late

instance (engine : GameEngine) (first second : ℤ) : Decidable (engine.Separate first second) :=
  decidable_of_iff (_ ∧ _ ∧ _) ⟨fun ⟨arrivals, jumps, overtaken⟩ ↦ ⟨arrivals, jumps, overtaken⟩,
    fun h ↦ ⟨h.arrivals, h.jumps, h.overtaken⟩⟩

/-- The squares about which the two executions disagree in the second call. -/
def Held (engine : GameEngine) (first : ℤ) (pos : Position) : Prop :=
  pos ∈ (engine.arrivalTick first).arrivedThisTick ∨
    ∃ jump ∈ engine.activeMotions, jump.type = .jump ∧
      jump.isExpired (engine.elapsedMs + first) = true ∧ jump.source = pos

section Remaining

variable {engine : GameEngine} {first second : ℤ}

/-- All late moves to one of these squares are of one colour. -/
theorem Separate.sameColor (h : engine.Separate first second) (hlife : engine.Lifecycle)
    {late late' : Motion} (hlate : late ∈ engine.completingLater first second)
    (hlate' : late' ∈ engine.completingLater first second)
    (hsquare : late'.destination = late.destination) (hheld : engine.Held first late.destination) :
    late'.pieceColor = late.pieceColor := by
  rcases hheld with harrived | ⟨jump, hjump, htype, hexpired, hsource⟩
  · obtain ⟨early, hearly, hdestination⟩ := hlife.exists_of_arrived harrived
    rw [h.arrivals early hearly late hlate hdestination.symm,
      h.arrivals early hearly late' hlate' (hsquare.trans hdestination.symm)]
  · rw [h.jumps jump hjump htype hexpired late hlate hsource.symm,
      h.jumps jump hjump htype hexpired late' hlate' (hsquare.trans hsource.symm)]

/-- After the first call no late move meets an enemy on one of these squares. -/
theorem Separate.not_enemy (h : engine.Separate first second) (hlife : engine.Lifecycle)
    (hair : engine.Airborne) {late : Motion} (hlate : late ∈ engine.completingLater first second)
    (hheld : engine.Held first late.destination) :
    ¬ Enemy ((engine.arrivalTick first).board.cell late.destination) late.pieceColor := by
  rintro ⟨hfull, hcolor⟩
  rcases hheld with harrived | ⟨jump, hjump, htype, hexpired, hsource⟩
  · rcases (hlife.frame_arrivalTick first).arrived _ harrived with
      hempty | ⟨mover, hmover, -, hdestination, his⟩
    · simp [hempty] at hfull
    · rw [his.2.2, h.arrivals mover hmover late hlate hdestination.symm] at hcolor
      exact Color.ne_opposite _ hcolor
  · have his := Piece.Is.of_kind_eq ((engine.sameKinds_arrivalStart first).kind _)
      (hair jump hjump htype)
    rw [← hsource, (cell_turns_jump hlife hair hjump htype).2, his.2.2,
      h.jumps jump hjump htype hexpired late hlate hsource.symm] at hcolor
    exact Color.ne_opposite _ hcolor

/-- The ticks of the two executions while they resolve the late arrivals. -/
structure Aligned (engine : GameEngine) (first second : ℤ) (left right : Tick) : Prop where
  inBounds : ∀ pos, left.board.inBounds pos = engine.board.inBounds pos
  board : SameKinds left.board right.board
  arrived : ∀ pos, pos ∈ left.arrivedThisTick ↔
    pos ∈ (engine.arrivalTick first).arrivedThisTick ∨ pos ∈ right.arrivedThisTick
  resolutions :
    left.resolutions = (engine.arrivalTick first).resolutions ++ right.resolutions
  held : ∀ late ∈ engine.completingLater first second, engine.Held first late.destination →
    ¬ Enemy (left.board.cell late.destination) late.pieceColor

theorem Aligned.start (hsep : engine.Separate first second) (hlife : engine.Lifecycle)
    (hair : engine.Airborne) :
    engine.Aligned first second (engine.middleTick first second)
      ((engine.advanceTime first).arrivalStart second) := by
  have hmiddle := hlife.alike_middleTick first second
  have hboard := (engine.sameKinds_advanceTime first).symm.trans
    ((engine.advanceTime first).sameKinds_arrivalStart second).symm
  exact
    { inBounds := fun pos ↦
        (hmiddle.board.inBounds pos).trans (hlife.inBounds_arrivalTick first pos)
      board := hmiddle.board.trans hboard
      arrived := fun pos ↦ by simp [hmiddle.arrived, arrivalStart]
      resolutions := by simp [hmiddle.resolutions, arrivalStart]
      held := fun late hlate hheld henemy ↦ hsep.not_enemy hlife hair hlate hheld
        ⟨(hmiddle.board.isEmpty _).symm.trans henemy.1,
          (hmiddle.board.color _).symm.trans henemy.2⟩ }

theorem isJumpActiveAt_filter {motions : List Motion} {currentTimeMs : ℤ} {pos : Position}
    (h : ∀ jump ∈ motions, jump.type = .jump → jump.isExpired currentTimeMs = true →
      jump.source ≠ pos) :
    isJumpActiveAt (motions.filter fun motion ↦ !motion.isExpired currentTimeMs) pos =
      isJumpActiveAt motions pos := by
  rw [Bool.eq_iff_iff, isJumpActiveAt, isJumpActiveAt, List.any_filter, List.any_eq_true,
    List.any_eq_true]
  refine exists_congr fun jump ↦ and_congr_right fun hjump ↦ ?_
  simp only [Bool.and_eq_true, decide_eq_true_eq, Bool.not_eq_true']
  constructor
  · exact fun hall ↦ hall.2
  · rintro ⟨htype, hsource⟩
    exact ⟨Bool.eq_false_iff.2 fun hexpired ↦ h jump hjump htype hexpired hsource, htype, hsource⟩

/-- Both executions resolve a late arrival in the same way. -/
theorem Aligned.arrive (hsep : engine.Separate first second) (hlife : engine.Lifecycle)
    (hpremoves : ∀ source, engine.premoves source = none) {left right : Tick}
    (h : engine.Aligned first second left right) {motion : Motion}
    (hmem : motion ∈ engine.completingLater first second) :
    engine.Aligned first second (arrive engine.activeMotions left motion)
      (arrive (engine.advanceTime first).activeMotions right motion) := by
  have hon : motion.OnBoard left.board :=
    (hlife.onBoard_completing (mem_completingLater.1 hmem).1).congr h.inBounds
  have hresult : outcome engine.activeMotions left motion =
      outcome (engine.advanceTime first).activeMotions right motion := by
    refine outcome_congr (h.board.kind _) (h.board.kind _) fun henemy ↦ ?_
    have hfree : ¬ engine.Held first motion.destination :=
      fun hheld ↦ h.held motion hmem hheld henemy
    rw [Held, not_or] at hfree
    refine ⟨?_, ?_⟩
    · rw [activeMotions_advanceTime_of_none hpremoves]
      exact (isJumpActiveAt_filter fun jump hjump htype hexpired hsource ↦
        hfree.2 ⟨jump, hjump, htype, hexpired, hsource⟩).symm
    · rw [h.arrived, or_iff_right hfree.1]
  have hspec := outcome_spec engine.activeMotions left motion
  rw [Engine.arrive, Engine.arrive, ← hresult]
  refine
    { inBounds := fun pos ↦ (inBounds_settle ..).trans (h.inBounds pos)
      board := h.board.settle motion _
      arrived := fun pos ↦ ?_
      resolutions := ?_
      held := ?_ }
  · rw [mem_arrived_settle, mem_arrived_settle, h.arrived, or_assoc]
  · rw [resolutions_settle, resolutions_settle, h.resolutions, emitted_congr (h.board.kind _),
      List.append_assoc]
  · intro late hlate hheld
    by_cases hlanded : outcome engine.activeMotions left motion = .landed ∧
        late.destination = motion.destination
    · -- The piece that has landed has the colour of every late move to this square.
      obtain ⟨hlanded, hsquare⟩ := hlanded
      rw [hlanded] at hspec ⊢
      have hcolor := hsep.sameColor hlife hlate hmem hsquare.symm hheld
      rw [hsquare, cell_settle_landed hon, Enemy, landedPiece_color, hspec.1.color, hcolor]
      exact fun henemy ↦ Color.ne_opposite _ henemy.2
    · rcases cell_settle_or_empty hon hlanded with hcell | hempty
      · rw [hcell]
        exact h.held late hlate hheld
      · rw [hempty]
        exact fun henemy ↦ absurd henemy.1 (by decide)

theorem Aligned.run (hsep : engine.Separate first second) (hlife : engine.Lifecycle)
    (hpremoves : ∀ source, engine.premoves source = none) {left right : Tick}
    (h : engine.Aligned first second left right) {motions : List Motion}
    (hmotions : ∀ motion ∈ motions, motion ∈ engine.completingLater first second) :
    engine.Aligned first second (Transition.run (Engine.arrive engine.activeMotions) left motions)
      (Transition.run (Engine.arrive (engine.advanceTime first).activeMotions) right motions) := by
  induction motions generalizing left right with
  | nil => exact h
  | cons motion rest ih =>
    exact ih (h.arrive hsep hlife hpremoves (hmotions motion (List.mem_cons_self ..)))
      fun other hother ↦ hmotions other (List.mem_cons_of_mem _ hother)

end Remaining

/-! ## One call and two calls -/

/-- What two calls and the single call that covers the same time have in common; the entries of the
log are compared by `Similar`. -/
structure SplitAgrees (Similar : List MoveLogEntry → List MoveLogEntry → Prop)
    (engine : GameEngine) (first second : ℕ) : Prop where
  kind : ∀ pos, (((engine.advanceTime first).advanceTime second).board.cell pos).kind =
    ((engine.advanceTime (first + second)).board.cell pos).kind
  score : ∀ color, ((engine.advanceTime first).advanceTime second).moveLog.score color =
    (engine.advanceTime (first + second)).moveLog.score color
  entries : Similar (engine.advanceTime (first + second)).moveLog.entries
    ((engine.advanceTime first).advanceTime second).moveLog.entries

/-- No late move was started before a move of the first call. -/
def InOrder (engine : GameEngine) (first second : ℤ) : Prop :=
  ∀ early ∈ engine.completing first, ∀ late ∈ engine.completingLater first second,
    motionLess late early = false

instance (engine : GameEngine) (first second : ℤ) : Decidable (engine.InOrder first second) :=
  inferInstanceAs (Decidable (∀ early ∈ engine.completing first,
    ∀ late ∈ engine.completingLater first second, motionLess late early = false))

/-- The single call resolves what the two calls resolve, and their boards look the same. -/
theorem Lifecycle.split {engine : GameEngine} (hlife : engine.Lifecycle) (hair : engine.Airborne)
    (hpremoves : ∀ source, engine.premoves source = none) {first second : ℕ}
    (hsep : engine.Separate first second)
    {Similar : List MoveResolution → List MoveResolution → Prop}
    (halike : Alike Similar (engine.arrivalTick (first + second)) (engine.lateTick first second)) :
    SameKinds ((engine.advanceTime first).advanceTime second).board
        (engine.advanceTime (first + second)).board ∧
      Similar (engine.arrivalTick (first + second)).resolutions
        ((engine.arrivalTick first).resolutions ++
          ((engine.advanceTime first).arrivalTick second).resolutions) := by
  have haligned : engine.Aligned first second (engine.lateTick first second)
      ((engine.advanceTime first).arrivalTick second) := by
    rw [(hlife.advanceTime first).arrivalTick_eq_run, completing_advanceTime hpremoves, lateTick]
    exact (Aligned.start hsep hlife hair).run hsep hlife hpremoves fun _ hmem ↦ hmem
  constructor
  · calc
      SameKinds ((engine.advanceTime first).advanceTime second).board
          ((engine.advanceTime first).arrivalTick second).board :=
        (engine.advanceTime first).sameKinds_advanceTime second
      SameKinds _ (engine.lateTick first second).board := haligned.board.symm
      SameKinds _ (engine.arrivalTick (first + second)).board := halike.board.symm
      SameKinds _ (engine.advanceTime (first + second)).board :=
        (engine.sameKinds_advanceTime (first + second)).symm
  · rw [← haligned.resolutions]
    exact halike.resolutions

/-- Similar resolutions make the log and the scores agree. -/
theorem Lifecycle.splitAgrees {engine : GameEngine} (hlife : engine.Lifecycle)
    (hair : engine.Airborne) (hpremoves : ∀ source, engine.premoves source = none)
    {first second : ℕ} (hsep : engine.Separate first second)
    {Similar : List MoveResolution → List MoveResolution → Prop}
    {SimilarEntries : List MoveLogEntry → List MoveLogEntry → Prop}
    (hperm : ∀ left right, Similar left right → left.Perm right)
    (hentries : ∀ left right, Similar left right →
      SimilarEntries (engine.moveLog.entries ++ left.map MoveLog.entryOf)
        (engine.moveLog.entries ++ right.map MoveLog.entryOf))
    (halike : Alike Similar (engine.arrivalTick (first + second)) (engine.lateTick first second)) :
    engine.SplitAgrees SimilarEntries first second := by
  obtain ⟨hkinds, hresolutions⟩ := hlife.split hair hpremoves hsep halike
  have hsum := fun color ↦ ((hperm _ _ hresolutions).map (MoveLog.pointsOf color)).sum_eq
  refine ⟨hkinds.kind, fun color ↦ ?_, ?_⟩
  · simp only [moveLog_advanceTime, moveLog_afterArrivals, MoveLog.score_foldl_record, hsum,
      List.map_append, List.sum_append, add_assoc]
  · simp only [moveLog_advanceTime, moveLog_afterArrivals, MoveLog.entries_foldl_record,
      List.append_assoc, ← List.map_append]
    exact hentries _ _ hresolutions

/-- If the late moves are separate from what the first call resolves, two calls do what the single
call does, up to the order of the log; and if no late move was started before a move of the first
call, the log is the same. -/
theorem splitAgrees_of_separate {engine : GameEngine} (h : Reachable engine)
    (hpremoves : ∀ source, engine.premoves source = none) (first second : ℕ)
    (hsep : engine.Separate first second) :
    engine.SplitAgrees List.Perm first second ∧
      (engine.InOrder first second → engine.SplitAgrees Eq first second) := by
  have hlife := h.lifecycle
  have hair := Reachable.airborne h
  have hsecond : (0 : ℤ) ≤ second := Int.natCast_nonneg second
  constructor
  · apply hlife.splitAgrees hair hpremoves hsep (fun _ _ hperm ↦ hperm)
      fun _ _ hperm ↦ (hperm.map _).append_left _
    apply hlife.alike_lateTick hsecond (List.Perm.eqv _) fun _ _ suffix hperm ↦
      hperm.append_right suffix
    intro early hearly late hlate hless tick
    exact arrive_comm (hsep.overtaken early hearly late hlate hless).symm _ tick
  · intro horder
    have halike :
        Alike Eq (engine.arrivalTick (first + second)) (engine.lateTick first second) := by
      apply hlife.alike_lateTick hsecond eq_equivalence
        fun _ _ suffix heq ↦ congrArg (· ++ suffix) heq
      intro early hearly late hlate hless
      simp [horder early hearly late hlate] at hless
    exact hlife.splitAgrees hair hpremoves hsep (fun _ _ ↦ List.Perm.of_eq)
      (fun _ _ heq ↦ congrArg _ (congrArg _ heq)) halike

/-- Two rooks that face each other. -/
def duelBoard : Board where
  cells := [[.of .rook .white, .empty, .empty, .of .rook .black]]
  rectangular := by decide

/-- Rooks that come to stand beside each other may be watched in one call or in two. -/
theorem splitAgrees_approach :
    (run (reset { board := duelBoard })
      [.requestMove ⟨0, 0⟩ ⟨0, 1⟩, .advanceTime 500, .requestMove ⟨0, 3⟩ ⟨0, 2⟩]).SplitAgrees
        Eq 500 500 :=
  (splitAgrees_of_separate (reachable_run _ _) (fun _ ↦ rfl) 500 500 (by decide)).2 (by decide)

/-- A rook that arrives on the square of another one a second later takes it when the two seconds
are two calls, and is itself removed when they are one. -/
theorem not_splitAgrees_tie :
    ∃ engine, Reachable engine ∧ (∀ source, engine.premoves source = none) ∧
      ¬ engine.SplitAgrees Eq 1000 1000 := by
  refine ⟨run (reset { board := duelBoard })
    [.requestMove ⟨0, 0⟩ ⟨0, 1⟩, .requestMove ⟨0, 3⟩ ⟨0, 1⟩], reachable_run _ _, fun _ ↦ rfl, ?_⟩
  intro h
  exact absurd (h.kind ⟨0, 1⟩) (by decide)

end GameEngine

end KongFuChess.Engine
