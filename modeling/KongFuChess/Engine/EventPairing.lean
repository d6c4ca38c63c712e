import KongFuChess.Engine.Turns
import KongFuChess.Library.Matching

/-!
# The pairing of published events

Completions of moves and captures by airborne pieces are published for moves whose start has been
published before, at most once for each start, and exactly when the move was due. The open tokens
of the stream are the moves in flight: a start opens the token of its motion, and the turn of the
motion closes it, with or without an event.
-/

namespace KongFuChess.Engine

open Model Realtime Rules Events

/-- An event that ends a move. -/
def EndsMove : GameEvent → Prop
  | .completedMove _ => True
  | .jumpCapture _ => True
  | _ => False

/-- The second event ends the move whose start the first one announces, and does so on time. -/
def EndsStarted : GameEvent → GameEvent → Prop
  | .moveStarted started, .completedMove completed =>
    completed.pieceType = started.pieceType ∧ completed.pieceColor = started.pieceColor ∧
      completed.fromPos = started.fromPos ∧ completed.toPos = started.toPos ∧
      completed.timestampMs =
        started.timestampMs + 1000 * distance started.fromPos started.toPos
  | .moveStarted started, .jumpCapture jumpCapture =>
    jumpCapture.victimType = started.pieceType ∧ jumpCapture.victimColor = started.pieceColor ∧
      jumpCapture.victimFrom = started.fromPos ∧ jumpCapture.victimTo = started.toPos ∧
      jumpCapture.timestampMs =
        started.timestampMs + 1000 * distance started.fromPos started.toPos
  | _, _ => False

/-- The event announces the start of the motion. -/
def Announces : GameEvent → Motion → Prop
  | .moveStarted started, motion =>
    motion.pieceType = started.pieceType ∧ motion.pieceColor = started.pieceColor ∧
      motion.source = started.fromPos ∧ motion.destination = started.toPos ∧
      motion.startedAtMs = started.timestampMs ∧
      motion.durationMs = 1000 * distance started.fromPos started.toPos
  | _, _ => False

def moveProtocol : Matching.Protocol GameEvent Motion where
  Reply := EndsMove
  Answers := EndsStarted
  Opens := Announces

/-- The event emitted for a move ends what the announcement of its start has begun. -/
theorem endsStarted_of_mem_emitted {tick : Tick} {motion : Motion} {result : Outcome}
    {resolution : MoveResolution} (h : resolution ∈ emitted tick motion result) (event : GameEvent)
    (hannounced : Announces event motion) : EndsStarted event (.ofResolution resolution) := by
  cases event with
  | moveStarted started =>
    obtain ⟨htype, hcolor, hsource, hdestination, hstarted, hduration⟩ := hannounced
    cases result with
    | stale | blocked | lostTie => exact absurd h List.not_mem_nil
    | jumpCaptured =>
      obtain rfl := List.mem_singleton.1 h
      simp only [GameEvent.ofResolution, jumpCaptureOf, EndsStarted, motionArrivalMs, htype,
        hcolor, hsource, hdestination, hstarted, hduration, and_self]
    | landed =>
      obtain rfl := List.mem_singleton.1 h
      simp only [GameEvent.ofResolution, completedMoveOf, EndsStarted, motionArrivalMs, htype,
        hcolor, hsource, hdestination, hstarted, hduration, and_self]
  | _ => exact hannounced.elim

namespace GameEngine

/-- An engine whose bus has been attached just now. -/
def attachBus (engine : GameEngine) : GameEngine := { engine with eventBus := some [] }

/-- The moves in flight. -/
def movesInFlight (engine : GameEngine) : Set Motion :=
  {motion | motion ∈ engine.activeMotions ∧ motion.type = .move}

/-- The published stream is matched, with the moves in flight as the open tokens. -/
def Published (engine : GameEngine) : Prop :=
  ∃ events, engine.eventBus = some events ∧
    Matching.Matched moveProtocol events engine.movesInFlight

theorem published_reset (before : GameEngine) : before.attachBus.reset.Published :=
  ⟨[], rfl, Matching.Matched.nil.mono fun _ hmem ↦ absurd hmem.1 List.not_mem_nil⟩

theorem Published.congr {engine later : GameEngine} (h : engine.Published)
    (hbus : later.eventBus = engine.eventBus) (harbiter : later.arbiter = engine.arbiter) :
    later.Published := by
  obtain ⟨events, hevents, hmatched⟩ := h
  refine ⟨events, hbus.trans hevents, ?_⟩
  rwa [movesInFlight, activeMotions, harbiter]

theorem Published.startMove {engine : GameEngine} (h : engine.Published)
    (fromPos toPos : Position) :
    (engine.start (engine.newMove fromPos toPos)
      (.moveStarted (engine.moveStartedEvent fromPos toPos))).Published := by
  obtain ⟨events, hevents, hmatched⟩ := h
  refine ⟨_, by rw [eventBus_start, hevents, Option.map_some], ?_⟩
  have hopened := hmatched.append_request (.moveStarted (engine.moveStartedEvent fromPos toPos))
    (engine.newMove fromPos toPos) id ⟨rfl, rfl, rfl, rfl, rfl, mul_comm _ _⟩
  refine hopened.mono fun motion hmotion ↦ ?_
  rw [movesInFlight, activeMotions_start, Set.mem_ofPred_eq, List.mem_append,
    List.mem_singleton] at hmotion
  rcases hmotion.1 with hactive | rfl
  · exact .inr ⟨hactive, hmotion.2⟩
  · exact .inl rfl

theorem Published.startJump {engine : GameEngine} (h : engine.Published) (pos : Position) :
    (engine.start (engine.newJump pos) (.jumpStarted (engine.jumpStartedEvent pos))).Published := by
  obtain ⟨events, hevents, hmatched⟩ := h
  refine ⟨_, by rw [eventBus_start, hevents, Option.map_some], ?_⟩
  have happended := hmatched.append_other (.jumpStarted (engine.jumpStartedEvent pos)) id
  refine happended.mono fun motion hmotion ↦ ?_
  rw [movesInFlight, activeMotions_start, Set.mem_ofPred_eq, List.mem_append,
    List.mem_singleton] at hmotion
  rcases hmotion.1 with hactive | rfl
  · exact ⟨hactive, hmotion.2⟩
  · exact absurd hmotion.2 MotionType.noConfusion

theorem Published.checkGameOver {engine : GameEngine} (h : engine.Published)
    (completing : List Motion) :
    (engine.checkGameOverFromCompletingMoves completing).Published := by
  refine checkGameOver_induction (P := Published) (fun winnerColor ↦ ?_) h completing
  obtain ⟨events, hevents, hmatched⟩ := h
  refine ⟨events ++ [.gameEnded ⟨winnerColor⟩], ?_, hmatched.append_other _ id⟩
  simp [endGame, publish, hevents]

/-- The turns of a call close the tokens of the completing moves. -/
theorem Published.afterArrivals {engine : GameEngine} (h : engine.Published)
    (hlife : engine.Lifecycle) (ms : ℤ) : (engine.afterArrivals ms).Published := by
  obtain ⟨events, hevents, hmatched⟩ := h.checkGameOver (engine.completing ms)
  rw [movesInFlight, activeMotions, arbiter_checkGameOver] at hmatched
  refine ⟨_, by rw [eventBus_afterArrivals, hevents, Option.map_some], ?_⟩
  rw [hlife.resolutions_eq, List.map_flatMap]
  have hclosed := hmatched.append_replies (engine.completing ms)
    (fun motion ↦ (engine.emittedAt ms motion).map GameEvent.ofResolution) ?_
    (hlife.nodup_completing ms).of_map ?_
  · refine hclosed.mono fun motion hmotion ↦ ?_
    rw [movesInFlight, activeMotions_afterArrivals, Set.mem_ofPred_eq, List.mem_filter] at hmotion
    refine ⟨⟨hmotion.1.1, hmotion.2⟩, fun hcompleting ↦ ?_⟩
    simp [(mem_completing.1 hcompleting).2.2] at hmotion
  · intro motion hmotion
    obtain ⟨hactive, htype, -⟩ := mem_completing.1 hmotion
    exact ⟨hactive, htype⟩
  · intro motion _
    have hends : ∀ resolution ∈ emitted (engine.turn ms motion) motion (engine.result ms motion),
        ∀ event, Announces event motion → EndsStarted event (.ofResolution resolution) :=
      fun resolution hmem ↦ endsStarted_of_mem_emitted hmem
    cases hresult : engine.result ms motion with
    | stale | blocked | lostTie => exact .inl (by simp [emittedAt, emitted, hresult])
    | jumpCaptured =>
      simp only [hresult, emitted, List.mem_singleton] at hends
      exact .inr ⟨_, by simp [emittedAt, emitted, hresult], hends _ rfl⟩
    | landed =>
      simp only [hresult, emitted, List.mem_singleton] at hends
      exact .inr ⟨_, by simp [emittedAt, emitted, hresult], hends _ rfl⟩

theorem Published.advanceTime {engine : GameEngine} (h : engine.Published)
    (hlife : engine.Lifecycle) (ms : ℤ) : (engine.advanceTime ms).Published := by
  have hpremoves := processPremoves_induction (P := Published)
    (fun _ _ hpublished ↦ hpublished.congr rfl rfl)
    (fun _ fromPos toPos hpublished ↦
      requestMove_induction (fun _ ↦ hpublished.startMove fromPos toPos) hpublished)
    (h.afterArrivals hlife ms) (engine.completing ms)
  rw [advanceTime_eq]
  exact hpremoves.congr (eventBus_applyCooldown _ _) (arbiter_applyCooldown _ _)

theorem Published.step {engine : GameEngine} (h : engine.Published) (hlife : engine.Lifecycle)
    (op : Op) : (engine.step op).Published :=
  step_induction (fun fromPos toPos _ ↦ h.startMove fromPos toPos) (fun pos _ ↦ h.startJump pos)
    (fun _ _ _ ↦ h.congr rfl rfl) (fun ms ↦ h.advanceTime hlife ms)
    (fun _ _ ↦ h.congr rfl rfl) h

/-- The stream published since a reset is well paired. Every completed move and every capture by an
airborne piece has its own earlier start, which it matches in piece, squares and due time. -/
theorem events_wellPaired (before : GameEngine) (ops : List Op) :
    ∃ events, (before.attachBus.reset.run ops).eventBus = some events ∧
      ∃ start : ℕ → ℕ,
        (∀ index event, events[index]? = some event → EndsMove event →
          start index < index ∧ ∃ started, events[start index]? = some started ∧
            EndsStarted started event) ∧
        ∀ left right event event', events[left]? = some event → EndsMove event →
          events[right]? = some event' → EndsMove event' → start left = start right →
            left = right := by
  have hpublished : (before.attachBus.reset.run ops).Published := by
    have hboth := Transition.run_invariant step
      (I := fun engine ↦ engine.Lifecycle ∧ engine.Published)
      (fun _ op h ↦ ⟨h.1.step op, h.2.step h.1 op⟩)
      ⟨lifecycle_reset before.attachBus, published_reset before⟩ ops
    exact hboth.2
  obtain ⟨events, hevents, hmatched⟩ := hpublished
  obtain ⟨start, hassignment⟩ := hmatched.wellPaired
  refine ⟨events, hevents, start, ?_, ?_⟩
  · exact fun index event hindex hends ↦ hassignment.answered hindex hends
  · exact fun left right event event' hleft hends hright hends' heq ↦
      hassignment.injective hleft hends hright hends' heq

end GameEngine

end KongFuChess.Engine
