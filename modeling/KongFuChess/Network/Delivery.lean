import KongFuChess.Engine.Uncontested
import KongFuChess.Io.BoardSetup
import KongFuChess.Network.ClientGameSync

/-!
# A host and a client

The host plays the game and publishes its events, the client applies them in the order of their
publication, and both play in frames of 16 milliseconds. Nothing else connects them, so an event
may wait for any number of frames of either side.

Notes are kept of the frame in which an event was published and of the frame of the host that the
client has reached. No step reads them; they serve to state when an event arrives in time.
-/

namespace KongFuChess.Engine.GameEngine

open Model Realtime Events

/-! ## What the engine publishes -/

/-- The events of a call of `advanceTime` by an engine without premoves. -/
def announced (engine : GameEngine) (ms : ℤ) : List GameEvent :=
  (if engine.isGameOver then []
    else
      match (engine.completing ms).findSome? engine.verdict with
      | none => []
      | some winnerColor => [.gameEnded ⟨winnerColor⟩]) ++
    (engine.arrivalTick ms).resolutions.map GameEvent.ofResolution

theorem eventBus_advanceTime {engine : GameEngine} {events : List GameEvent}
    (hpremoves : ∀ source, engine.premoves source = none) (hbus : engine.eventBus = some events)
    (ms : ℤ) : (engine.advanceTime ms).eventBus = some (events ++ engine.announced ms) := by
  rw [advanceTime_of_none hpremoves, eventBus_applyCooldown, eventBus_afterArrivals, announced,
    checkGameOver_eq]
  split
  · simp [hbus]
  · cases (engine.completing ms).findSome? engine.verdict with
    | none => simp [hbus]
    | some winnerColor => simp [hbus, endGame, publish]

/-- An announced end of the game is the verdict of the call. -/
theorem over_of_announced {engine : GameEngine} {ms : ℤ} {winner : Color}
    (h : GameEvent.gameEnded ⟨winner⟩ ∈ engine.announced ms) :
    (engine.advanceTime ms).isGameOver = true ∧ (engine.advanceTime ms).winner = some winner := by
  have hresolution : GameEvent.gameEnded ⟨winner⟩ ∉
      (engine.arrivalTick ms).resolutions.map GameEvent.ofResolution := by
    rintro hmem
    obtain ⟨resolution, -, heq⟩ := List.mem_map.1 hmem
    cases resolution <;> exact absurd heq (by simp [GameEvent.ofResolution])
  rw [announced, List.mem_append, or_iff_left hresolution] at h
  rw [isGameOver_advanceTime, winner_advanceTime, checkGameOver_eq]
  split at h
  · exact absurd h List.not_mem_nil
  · rename_i hover
    rw [if_neg hover]
    cases hfound : (engine.completing ms).findSome? engine.verdict with
    | none => simp [hfound] at h
    | some winnerColor =>
      obtain rfl : winner = winnerColor := by simpa [hfound] using h
      exact ⟨rfl, rfl⟩

/-- A call that ends the game announces it. -/
theorem exists_announced_of_over {engine : GameEngine} {ms : ℤ} (hover : engine.isGameOver = false)
    (hover' : (engine.advanceTime ms).isGameOver = true) :
    ∃ winner, GameEvent.gameEnded ⟨winner⟩ ∈ engine.announced ms := by
  rw [isGameOver_advanceTime, checkGameOver_eq, if_neg (by simp [hover])] at hover'
  cases hfound : (engine.completing ms).findSome? engine.verdict with
  | none => simp [hfound, hover] at hover'
  | some winner => exact ⟨winner, by simp [announced, hover, hfound]⟩

end KongFuChess.Engine.GameEngine

namespace KongFuChess.Network

open Model Realtime Rules Events Engine

/-- On the standard board every resolution of a call has names for its squares and pieces. -/
theorem nameable_of_mem_resolutions {engine : GameEngine} (hlife : engine.Lifecycle)
    (hstandard : ∀ pos, engine.board.inBounds pos = true ↔ Io.OnStandardBoard pos) {ms : ℤ}
    {resolution : MoveResolution} (h : resolution ∈ (engine.arrivalTick ms).resolutions) :
    Nameable (.ofResolution resolution) := by
  rw [hlife.resolutions_eq, List.mem_flatMap] at h
  obtain ⟨motion, hmotion, hemitted⟩ := h
  have hon := hlife.onBoard_completing hmotion
  have hsource := (hstandard _).1 hon.source
  have hdestination := (hstandard _).1 hon.destination
  have hspec := GameEngine.result_spec engine ms motion
  have htype : motion.Valid (engine.turn ms motion).board → motion.pieceType ≠ .empty := by
    intro hvalid
    rw [← hvalid.type, ← Piece.isEmpty_eq_false_iff]
    exact hvalid.not_isEmpty
  rw [GameEngine.emittedAt] at hemitted
  cases hresult : engine.result ms motion with
  | stale | blocked | lostTie => simp [hresult, emitted] at hemitted
  | jumpCaptured =>
    rw [hresult] at hspec hemitted
    obtain rfl := List.mem_singleton.1 hemitted
    exact ⟨(Piece.isEmpty_eq_false_iff _).1 hspec.2.1.1, htype hspec.1, hdestination, hsource,
      hdestination⟩
  | landed =>
    rw [hresult] at hspec hemitted
    obtain rfl := List.mem_singleton.1 hemitted
    refine ⟨htype hspec.1, hsource, hdestination, fun hnone ↦ ?_⟩
    simp only [completedMoveOf] at hnone ⊢
    split at hnone
    · rename_i hfull
      exact absurd hnone ((Piece.isEmpty_eq_false_iff _).1 (by simpa using hfull))
    · rename_i hempty
      exact if_neg hempty

/-- An accepted request publishes the event that announces it. -/
theorem eventBus_of_answer {engine : GameEngine} {events : List GameEvent} {op : Op}
    (hbus : engine.eventBus = some events) (h : engine.answer op = some true) :
    ∃ event, requestOf event = some op ∧ (engine.step op).eventBus = some (events ++ [event]) ∧
      ((∀ pos, engine.board.inBounds pos = true ↔ Io.OnStandardBoard pos) → Nameable event) := by
  cases op with
  | requestMove fromPos toPos =>
    rcases engine.requestMove_cases fromPos toPos with heq | ⟨hguards, heq⟩
    · simp [GameEngine.answer, GameEngine.perform, heq] at h
    have hvalid := validated_of_validateMove hguards.valid
    refine ⟨.moveStarted (engine.moveStartedEvent fromPos toPos), rfl, ?_, fun hstandard ↦ ?_⟩
    · rw [GameEngine.step_requestMove, heq, GameEngine.eventBus_start, hbus, Option.map_some]
    · exact ⟨(Piece.isEmpty_eq_false_iff _).1 hvalid.occupied,
        (hstandard _).1 hvalid.inBounds_from, (hstandard _).1 hvalid.inBounds_to⟩
  | requestJump pos =>
    rcases engine.requestJump_cases pos with heq | ⟨hguards, heq⟩
    · simp [GameEngine.answer, GameEngine.perform, heq] at h
    refine ⟨.jumpStarted (engine.jumpStartedEvent pos), rfl, ?_, fun hstandard ↦ ?_⟩
    · rw [GameEngine.step_requestJump, heq, GameEngine.eventBus_start, hbus, Option.map_some]
    · exact ⟨(Piece.isEmpty_eq_false_iff _).1 hguards.occupied, (hstandard _).1 hguards.inBounds⟩
  | queuePremove | advanceTime | remoteGameEnded =>
    simp [GameEngine.answer, GameEngine.perform] at h

/-- A refused request changes nothing. -/
theorem step_of_refused {engine : GameEngine} {event : GameEvent} {op : Op}
    (hop : requestOf event = some op) (h : engine.answer op ≠ some true) :
    engine.step op = engine := by
  rw [Ne, GameEngine.answer_eq_true_iff, Bool.not_eq_true] at h
  cases event with
  | moveStarted started =>
    obtain rfl := Option.some.inj hop
    rw [GameEngine.step_requestMove, GameEngine.requestMove_of_refused h]
  | jumpStarted started =>
    obtain rfl := Option.some.inj hop
    rw [GameEngine.step_requestJump, GameEngine.requestJump_of_refused h]
  | gameStarted | completedMove | jumpCapture | gameEnded => simp [requestOf] at hop

/-! ## The system -/

/-- A published event on its way to the client, with the number of frames that the host had played
and whether it was at rest when the event was published. -/
structure Delivery where
  event : GameEvent
  hostFrame : ℕ
  hostQuiet : Bool

structure System where
  host : GameEngine
  client : GameEngine
  pending : List Delivery := []
  /-- The frames that the host has played. -/
  hostFrames : ℕ := 0
  /-- The frame of the host in which the client is, counted from the last start it applied. -/
  clientFrame : ℕ := 0

inductive SystemOp
  | hostRequestMove (fromPos toPos : Position)
  | hostRequestJump (pos : Position)
  | hostTick
  | clientTick
  | clientApply
deriving DecidableEq, Repr

/-- The length of a frame in milliseconds. -/
def kFrameMs : ℕ := 16

namespace System

/-- Both sides begin on the standard board; only the host has an event bus. -/
def start (hostBefore clientBefore : GameEngine) : System where
  host := { hostBefore with board := Io.setupStandardBoard, eventBus := some [] }.reset
  client := { clientBefore with board := Io.setupStandardBoard, eventBus := none }.reset

/-- The host performs an operation, and what it publishes is sent to the client. -/
def hostPerform (system : System) (op : Op) (hostFrames : ℕ) : System :=
  let host := system.host.step op
  let published := (host.eventBus.getD []).drop (system.host.eventBus.getD []).length
  { system with
    host := host
    pending := system.pending ++ published.map fun event ↦
      { event := event
        hostFrame := hostFrames
        hostQuiet := system.host.quiet }
    hostFrames := hostFrames }

def clientApply (system : System) : System :=
  match system.pending with
  | [] => system
  | delivery :: rest =>
    let message := serializeServerEvent delivery.event
    { system with
      client := (ClientGameSync.applyMessage message system.client).2
      pending := rest
      clientFrame :=
        if (requestOf delivery.event).isSome then delivery.hostFrame else system.clientFrame }

def step (system : System) : SystemOp → System
  | .hostRequestMove fromPos toPos =>
    system.hostPerform (.requestMove fromPos toPos) system.hostFrames
  | .hostRequestJump pos => system.hostPerform (.requestJump pos) system.hostFrames
  | .hostTick => system.hostPerform (.advanceTime kFrameMs) (system.hostFrames + 1)
  | .clientTick =>
    { system with
      client := system.client.advanceTime kFrameMs
      clientFrame := system.clientFrame + 1 }
  | .clientApply => system.clientApply

abbrev run (system : System) (ops : List SystemOp) : System := Transition.run step system ops

/-- All events have been applied and nothing is in flight. -/
def Settled (system : System) : Prop :=
  system.pending = [] ∧ system.host.activeMotions = [] ∧ system.client.activeMotions = []

instance (system : System) : Decidable system.Settled := inferInstanceAs (Decidable (_ ∧ _))

/-- Both boards show the same, and finished games have the same winner. -/
def Converged (system : System) : Prop :=
  kinds system.host.board = kinds system.client.board ∧
    (system.host.isGameOver = true → system.client.isGameOver = true →
      system.host.winner = system.client.winner)

/-! ## What the host sends -/

/-- The events that the host publishes in a frame, on their way to the client. -/
def deliveries (system : System) (hostFrames : ℕ) (events : List GameEvent) : List Delivery :=
  events.map fun event ↦
    { event := event
      hostFrame := hostFrames
      hostQuiet := system.host.quiet }

theorem hostPerform_eq {system : System} (op : Op) {events added : List GameEvent}
    (hbus : system.host.eventBus = some events)
    (hbus' : (system.host.step op).eventBus = some (events ++ added)) (hostFrames : ℕ) :
    system.hostPerform op hostFrames =
      { system with
        host := system.host.step op
        pending := system.pending ++ system.deliveries hostFrames added
        hostFrames := hostFrames } := by
  simp [hostPerform, hbus, hbus', deliveries]

theorem hostPerform_of_refused {system : System} {op : Op} {event : GameEvent}
    (hop : requestOf event = some op) (h : system.host.answer op ≠ some true) :
    system.hostPerform op system.hostFrames = system := by
  simp [hostPerform, step_of_refused hop h]

/-- The host has no premoves and plays on a board of standard size. Every event on its way to the
client can be read there, no motion has been started after an announced end of the game, and the
client knows the winner or is going to hear of it. -/
structure Sound (system : System) : Prop where
  lifecycle : system.host.Lifecycle
  noPremoves : ∀ source, system.host.premoves source = none
  standard : ∀ pos, system.host.board.inBounds pos = true ↔ Io.OnStandardBoard pos
  bus : ∃ events, system.host.eventBus = some events
  nameable : ∀ delivery ∈ system.pending, Nameable delivery.event
  ended : ∀ delivery ∈ system.pending, ∀ winner, delivery.event = .gameEnded ⟨winner⟩ →
    system.host.isGameOver = true ∧ system.host.winner = some winner
  last : system.pending.Pairwise fun first second ↦
    ∀ winner, first.event = .gameEnded ⟨winner⟩ → requestOf second.event = none
  informed : system.host.isGameOver = true →
    (∃ delivery ∈ system.pending, ∃ winner, delivery.event = .gameEnded ⟨winner⟩) ∨
      system.client.isGameOver = true ∧ system.client.winner = system.host.winner

theorem sound_start (hostBefore clientBefore : GameEngine) :
    (start hostBefore clientBefore).Sound where
  lifecycle := GameEngine.lifecycle_reset _
  noPremoves := fun _ ↦ rfl
  standard := Io.inBounds_setupStandardBoard
  bus := ⟨[], rfl⟩
  nameable := fun _ hmem ↦ absurd hmem List.not_mem_nil
  ended := fun _ hmem ↦ absurd hmem List.not_mem_nil
  last := .nil
  informed := fun hover ↦ absurd hover Bool.false_ne_true

/-- A tick announces no motion. -/
theorem requestOf_of_mem_announced {engine : GameEngine} {ms : ℤ} {event : GameEvent}
    (h : event ∈ engine.announced ms) : requestOf event = none := by
  rw [GameEngine.announced, List.mem_append] at h
  rcases h with hverdict | hresolution
  · split at hverdict
    · exact absurd hverdict List.not_mem_nil
    · cases hfound : (engine.completing ms).findSome? engine.verdict with
      | none => simp [hfound] at hverdict
      | some winnerColor =>
        obtain rfl : event = .gameEnded ⟨winnerColor⟩ := by simpa [hfound] using hverdict
        rfl
  · obtain ⟨resolution, -, rfl⟩ := List.mem_map.1 hresolution
    cases resolution <;> rfl

theorem nameable_of_mem_announced {system : System} (h : system.Sound) {ms : ℤ} {event : GameEvent}
    (hmem : event ∈ system.host.announced ms) : Nameable event := by
  rw [GameEngine.announced, List.mem_append] at hmem
  rcases hmem with hverdict | hresolution
  · split at hverdict
    · exact absurd hverdict List.not_mem_nil
    · cases hfound : (system.host.completing ms).findSome? system.host.verdict with
      | none => simp [hfound] at hverdict
      | some winnerColor =>
        obtain rfl : event = .gameEnded ⟨winnerColor⟩ := by simpa [hfound] using hverdict
        trivial
  · obtain ⟨resolution, hmem, rfl⟩ := List.mem_map.1 hresolution
    exact nameable_of_mem_resolutions h.lifecycle h.standard hmem

theorem Sound.hostTick_eq {system : System} (h : system.Sound) :
    system.step .hostTick =
      { system with
        host := system.host.advanceTime kFrameMs
        pending := system.pending ++
          system.deliveries (system.hostFrames + 1) (system.host.announced kFrameMs)
        hostFrames := system.hostFrames + 1 } := by
  obtain ⟨events, hbus⟩ := h.bus
  exact hostPerform_eq (.advanceTime kFrameMs) hbus
    (GameEngine.eventBus_advanceTime h.noPremoves hbus kFrameMs) _

theorem Sound.hostTick {system : System} (h : system.Sound) : (system.step .hostTick).Sound := by
  obtain ⟨events, hbus⟩ := h.bus
  rw [h.hostTick_eq]
  have hmem : ∀ delivery ∈ system.deliveries (system.hostFrames + 1)
      (system.host.announced kFrameMs), delivery.event ∈ system.host.announced kFrameMs := by
    intro delivery hdelivery
    obtain ⟨event, hevent, rfl⟩ := List.mem_map.1 hdelivery
    exact hevent
  exact
    { lifecycle := h.lifecycle.advanceTime kFrameMs
      noPremoves := ((GameEngine.Replays.refl h.noPremoves).advanceTime _).noPremoves
      standard := fun pos ↦ by
        rw [h.lifecycle.inBounds_advanceTime]
        exact h.standard pos
      bus := ⟨_, GameEngine.eventBus_advanceTime h.noPremoves hbus kFrameMs⟩
      nameable := by
        intro delivery hdelivery
        rcases List.mem_append.1 hdelivery with hold | hnew
        · exact h.nameable delivery hold
        · exact nameable_of_mem_announced h (hmem delivery hnew)
      ended := by
        intro delivery hdelivery winner hevent
        rcases List.mem_append.1 hdelivery with hold | hnew
        · obtain ⟨hover, hwinner⟩ := h.ended delivery hold winner hevent
          obtain ⟨hover', hwinner'⟩ := GameEngine.over_advanceTime hover kFrameMs
          exact ⟨hover', hwinner'.trans hwinner⟩
        · exact GameEngine.over_of_announced (hevent ▸ hmem delivery hnew)
      last := by
        refine List.pairwise_append.2 ⟨h.last, ?_, ?_⟩
        · exact List.pairwise_of_forall_mem_list fun _ _ second hsecond _ _ ↦
            requestOf_of_mem_announced (hmem second hsecond)
        · exact fun _ _ second hsecond _ _ ↦ requestOf_of_mem_announced (hmem second hsecond)
      informed := by
        intro hover'
        cases hover : system.host.isGameOver with
        | true =>
          have hwinner := (GameEngine.over_advanceTime hover kFrameMs).2
          refine (h.informed hover).imp ?_ fun hclient ↦ ⟨hclient.1, hclient.2.trans hwinner.symm⟩
          exact fun ⟨delivery, hdelivery, hended⟩ ↦
            ⟨delivery, List.mem_append_left _ hdelivery, hended⟩
        | false =>
          obtain ⟨winner, hannounced⟩ := GameEngine.exists_announced_of_over hover hover'
          exact .inl ⟨_, List.mem_append_right _ (List.mem_map_of_mem hannounced), winner, rfl⟩ }

/-- An accepted request sends one event, which announces it. -/
theorem Sound.hostAccept {system : System} (h : system.Sound) {op : Op}
    (haccepted : system.host.answer op = some true) :
    ∃ event, requestOf event = some op ∧ Nameable event ∧
      system.hostPerform op system.hostFrames =
        { system with
          host := system.host.step op
          pending := system.pending ++ system.deliveries system.hostFrames [event] } := by
  obtain ⟨events, hbus⟩ := h.bus
  obtain ⟨event, hop, hbus', hnameable⟩ := eventBus_of_answer hbus haccepted
  exact ⟨event, hop, hnameable h.standard, hostPerform_eq op hbus hbus' _⟩

theorem Sound.hostRequest {system : System} (h : system.Sound) {op : Op} {event : GameEvent}
    (hop : requestOf event = some op) : (system.hostPerform op system.hostFrames).Sound := by
  by_cases haccepted : system.host.answer op = some true
  swap
  · rwa [hostPerform_of_refused hop haccepted]
  obtain ⟨event, hop, hnameable, heq⟩ := h.hostAccept haccepted
  obtain ⟨events, hbus⟩ := h.bus
  obtain ⟨event', hop', hbus', -⟩ := eventBus_of_answer hbus haccepted
  have hnotOver := GameEngine.not_over_of_answer haccepted
  have hreplays := (GameEngine.Replays.refl h.noPremoves).accept haccepted hnotOver
  have hne : ∀ ms, op ≠ .advanceTime ms := fun ms heq ↦ by
    simp [heq, GameEngine.answer, GameEngine.perform] at haccepted
  have hnone : ∀ delivery ∈ system.pending, ∀ winner, delivery.event ≠ .gameEnded ⟨winner⟩ :=
    fun delivery hdelivery winner hevent ↦ by
      simp [(h.ended delivery hdelivery winner hevent).1] at hnotOver
  rw [heq]
  exact
    { lifecycle := h.lifecycle.step op
      noPremoves := hreplays.2.noPremoves
      standard := fun pos ↦ by
        rw [GameEngine.board_step _ hne]
        exact h.standard pos
      bus := ⟨_, hbus'⟩
      nameable := by
        intro delivery hdelivery
        rcases List.mem_append.1 hdelivery with hold | hnew
        · exact h.nameable delivery hold
        · obtain rfl := List.mem_singleton.1 hnew
          exact hnameable
      ended := by
        intro delivery hdelivery winner hevent
        rcases List.mem_append.1 hdelivery with hold | hnew
        · exact absurd hevent (hnone delivery hold winner)
        · obtain rfl := List.mem_singleton.1 hnew
          have hended : event = .gameEnded ⟨winner⟩ := hevent
          simp [hended, requestOf] at hop
      last := by
        refine List.pairwise_append.2 ⟨h.last, List.pairwise_singleton _ _, ?_⟩
        exact fun first hfirst _ _ winner hevent ↦ absurd hevent (hnone first hfirst winner)
      informed := fun hover ↦ by
        simp [GameEngine.isGameOver_step_of_answer haccepted] at hover }

theorem Sound.clientApply {system : System} (h : system.Sound) : system.clientApply.Sound := by
  unfold System.clientApply
  cases hpending : system.pending with
  | nil => exact h
  | cons delivery rest =>
    have hnameable := h.nameable
    have hended := h.ended
    have hlast := h.last
    have hinformed := h.informed
    rw [hpending] at hnameable hended hlast hinformed
    simp only [applyMessage_serialize (hnameable delivery (List.mem_cons_self ..))]
    exact
      { lifecycle := h.lifecycle
        noPremoves := h.noPremoves
        standard := h.standard
        bus := h.bus
        nameable := fun later hlater ↦ hnameable later (List.mem_cons_of_mem _ hlater)
        ended := fun later hlater ↦ hended later (List.mem_cons_of_mem _ hlater)
        last := hlast.of_cons
        informed := by
          intro hover
          by_cases hverdict : ∃ winner, delivery.event = .gameEnded ⟨winner⟩
          · obtain ⟨winner, hverdict⟩ := hverdict
            have hwinner := (hended delivery (List.mem_cons_self ..) winner hverdict).2
            rw [hverdict]
            exact .inr ⟨rfl, hwinner.symm⟩
          · rcases hinformed hover with ⟨later, hlater, winner, hannounced⟩ | hclient
            · rcases List.mem_cons.1 hlater with rfl | hlater
              · exact absurd ⟨winner, hannounced⟩ hverdict
              · exact .inl ⟨later, hlater, winner, hannounced⟩
            · right
              rwa [applyEvent_of_over hclient.1 fun winner heq ↦ hverdict ⟨winner, heq⟩] }

theorem Sound.step {system : System} (h : system.Sound) (op : SystemOp) :
    (system.step op).Sound := by
  cases op with
  | hostRequestMove fromPos toPos =>
    have hop : requestOf (.moveStarted { fromPos := fromPos, toPos := toPos }) =
      some (.requestMove fromPos toPos) := rfl
    exact h.hostRequest hop
  | hostRequestJump pos =>
    have hop : requestOf (.jumpStarted { square := pos }) = some (.requestJump pos) := rfl
    exact h.hostRequest hop
  | hostTick => exact h.hostTick
  | clientTick =>
    exact
      { h with
        informed := fun hover ↦ (h.informed hover).imp_right fun hclient ↦ by
          obtain ⟨hclient', hwinner⟩ := GameEngine.over_advanceTime hclient.1 kFrameMs
          exact ⟨hclient', hwinner.trans hclient.2⟩ }
  | clientApply => exact h.clientApply

/-- Whatever the delays, the client hears of the winner in the end. -/
theorem Sound.sameWinner {system : System} (h : system.Sound) (hpending : system.pending = [])
    (hover : system.host.isGameOver = true) :
    system.client.isGameOver = true ∧ system.client.winner = system.host.winner := by
  refine (h.informed hover).resolve_left ?_
  rintro ⟨delivery, hdelivery, -⟩
  rw [hpending] at hdelivery
  exact absurd hdelivery List.not_mem_nil

end System

end KongFuChess.Network
