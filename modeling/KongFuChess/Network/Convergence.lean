import KongFuChess.Network.OnTime

/-!
# When the boards of host and client converge

The client starts a motion when it reads that the host has started it, so late messages shift
motions and cooldowns against each other, and a start that the host has accepted may be refused.
The boards converge in two kinds of runs: if all events are applied on time, and if on both sides
no motion in flight contests another and the client accepts every start. In the second kind the
delays may be arbitrary, since every move lands as it was started.

The winner is never in doubt, because the host announces it.
-/

namespace KongFuChess.Network

open Model Realtime Rules Events Engine

namespace System

/-- A start is accepted by the client and contests no motion in flight there. A report does not
make the client repeat its motion. -/
def ArrivesUndisputed (system : System) (delivery : Delivery) : Prop :=
  (∀ op ∈ requestOf delivery.event, system.client.accepts op = true ∧ system.client.Free op) ∧
  (requestOf delivery.event = none → takesFallback system.client delivery.event = false)

instance (system : System) (delivery : Delivery) : Decidable (system.ArrivesUndisputed delivery) :=
  inferInstanceAs (Decidable (_ ∧ _))

/-- No motion contests another one when it is started, neither on the host nor on the client. -/
def Undisputed (system : System) : SystemOp → Prop
  | .hostRequestMove fromPos toPos =>
    system.host.accepts (.requestMove fromPos toPos) = true →
      system.host.Free (.requestMove fromPos toPos)
  | .hostRequestJump pos =>
    system.host.accepts (.requestJump pos) = true → system.host.Free (.requestJump pos)
  | .clientApply => ∀ delivery ∈ system.pending.head?, system.ArrivesUndisputed delivery
  | .hostTick => True
  | .clientTick => True

instance (system : System) (op : SystemOp) : Decidable (system.Undisputed op) :=
  match op with
  | .hostRequestMove .. | .hostRequestJump _ => inferInstanceAs (Decidable (_ → _))
  | .clientApply => inferInstanceAs (Decidable (∀ delivery ∈ system.pending.head?, _))
  | .hostTick | .clientTick => .isTrue trivial

/-- What the board will show when the start that is delivered has been repeated. -/
def concludeStart (rows : ℕ) (shown : Kinds) (delivery : Delivery) : Kinds :=
  match requestOf delivery.event with
  | none => shown
  | some op => GameEngine.concludeRequest rows shown op

theorem run_concludeStart_of_none (rows : ℕ) (shown : Kinds) {deliveries : List Delivery}
    (h : ∀ delivery ∈ deliveries, requestOf delivery.event = none) :
    Transition.run (concludeStart rows) shown deliveries = shown := by
  induction deliveries with
  | nil => rfl
  | cons delivery rest ih =>
    rw [Transition.run_cons, concludeStart, h delivery (List.mem_cons_self ..)]
    exact ih fun later hlater ↦ h later (List.mem_cons_of_mem _ hlater)

/-- Nothing is contested, and the starts on their way make up for the difference between what the
two boards will show. -/
structure Linked (system : System) : Prop where
  host : system.host.Uncontested
  client : system.client.Uncontested
  clientLifecycle : system.client.Lifecycle
  clientNoPremoves : ∀ source, system.client.premoves source = none
  rows : system.client.board.rows = system.host.board.rows
  destined : system.host.destined =
    Transition.run (concludeStart system.host.board.rows) system.client.destined system.pending

theorem linked_start (hostBefore clientBefore : GameEngine) :
    (start hostBefore clientBefore).Linked where
  host := GameEngine.uncontested_reset _
  client := GameEngine.uncontested_reset _
  clientLifecycle := GameEngine.lifecycle_reset _
  clientNoPremoves := fun _ ↦ rfl
  rows := rfl
  destined := rfl

theorem Linked.hostTick {system : System} (h : system.Linked) (hsound : system.Sound) :
    (system.step .hostTick).Linked := by
  have hrows := hsound.lifecycle.rows_advanceTime kFrameMs
  rw [hsound.hostTick_eq]
  exact
    { h with
      host := h.host.advanceTime hsound.lifecycle hsound.noPremoves _
      rows := h.rows.trans hrows.symm
      destined := by
        change (system.host.advanceTime kFrameMs).destined = _
        rw [h.host.destined_advanceTime hsound.lifecycle hsound.noPremoves, h.destined, hrows,
          Transition.run_append]
        refine (run_concludeStart_of_none _ _ fun delivery hdelivery ↦ ?_).symm
        obtain ⟨event, hevent, rfl⟩ := List.mem_map.1 hdelivery
        exact requestOf_of_mem_announced hevent }

theorem Linked.hostRequest {system : System} (h : system.Linked) (hsound : system.Sound) {op : Op}
    {event : GameEvent} (hop : requestOf event = some op)
    (hfree : system.host.accepts op = true → system.host.Free op) :
    (system.hostPerform op system.hostFrames).Linked := by
  by_cases haccepted : system.host.answer op = some true
  swap
  · rwa [hostPerform_of_refused hop haccepted]
  obtain ⟨event, hop, -, heq⟩ := hsound.hostAccept haccepted
  obtain ⟨hhost, hdestined⟩ := h.host.accept haccepted
    (hfree ((GameEngine.answer_eq_true_iff _ _).1 haccepted))
  have hboard : (system.host.step op).board = system.host.board :=
    GameEngine.board_step _ fun ms hadvance ↦ by
      simp [hadvance, GameEngine.answer, GameEngine.perform] at haccepted
  rw [heq]
  exact
    { h with
      host := hhost
      rows := h.rows.trans (congrArg Grid.rows hboard.symm)
      destined := by
        change (system.host.step op).destined = _
        rw [hdestined, h.destined, hboard, Transition.run_append]
        simp [deliveries, concludeStart, hop] }

theorem Linked.clientTick {system : System} (h : system.Linked) :
    (system.step .clientTick).Linked :=
  { h with
    client := h.client.advanceTime h.clientLifecycle h.clientNoPremoves _
    clientLifecycle := h.clientLifecycle.advanceTime kFrameMs
    clientNoPremoves := ((GameEngine.Replays.refl h.clientNoPremoves).advanceTime _).noPremoves
    rows := (h.clientLifecycle.rows_advanceTime _).trans h.rows
    destined := h.destined.trans (congrArg
      (Transition.run (concludeStart system.host.board.rows) · system.pending)
      (h.client.destined_advanceTime h.clientLifecycle h.clientNoPremoves _).symm) }

theorem Linked.clientApply {system : System} (h : system.Linked) (hsound : system.Sound)
    (hundisputed : system.Undisputed .clientApply) : system.clientApply.Linked := by
  unfold System.clientApply
  cases hpending : system.pending with
  | nil => exact h
  | cons delivery rest =>
    have hdestined := h.destined
    rw [hpending, Transition.run_cons, concludeStart] at hdestined
    obtain ⟨hstart, hreport⟩ := hundisputed delivery (by rw [hpending]; rfl)
    simp only [applyMessage_serialize (hsound.nameable delivery (by simp [hpending]))]
    cases hop : requestOf delivery.event with
    | some op =>
      simp only [hop] at hdestined
      obtain ⟨haccepts, hfree⟩ := hstart op hop
      have haccepted := (GameEngine.answer_eq_true_iff _ _).2 haccepts
      obtain ⟨hclient, hconcluded⟩ := h.client.accept haccepted hfree
      have hboard : (system.client.step op).board = system.client.board :=
        GameEngine.board_step _ fun ms hadvance ↦ by
          simp [hadvance, GameEngine.answer, GameEngine.perform] at haccepted
      have hreplays := (GameEngine.Replays.refl h.clientNoPremoves).accept haccepted
        (GameEngine.not_over_of_answer haccepted)
      rw [applyEvent_start hop]
      exact
        { host := h.host
          client := hclient
          clientLifecycle := h.clientLifecycle.step op
          clientNoPremoves := hreplays.2.noPremoves
          rows := (congrArg Grid.rows hboard).trans h.rows
          destined := by
            change system.host.destined = Transition.run _ (system.client.step op).destined rest
            rw [hdestined, hconcluded, h.rows] }
    | none =>
      simp only [hop] at hdestined
      by_cases hended : ∃ winner, delivery.event = .gameEnded ⟨winner⟩
      · obtain ⟨winner, hended⟩ := hended
        rw [hended]
        exact
          { host := h.host
            client := ⟨h.client.clear, h.client.valid, h.client.unblocked⟩
            clientLifecycle := h.clientLifecycle.congr rfl rfl rfl fun _ ↦ rfl
            clientNoPremoves := h.clientNoPremoves
            rows := h.rows
            destined := hdestined }
      · rw [applyEvent_report hop (fun winner heq ↦ hended ⟨winner, heq⟩) (hreport hop)]
        exact { h with destined := hdestined }

theorem Linked.step {system : System} (h : system.Linked) (hsound : system.Sound) {op : SystemOp}
    (hundisputed : system.Undisputed op) : (system.step op).Linked := by
  cases op with
  | hostRequestMove fromPos toPos =>
    have hop : requestOf (.moveStarted { fromPos := fromPos, toPos := toPos }) =
      some (.requestMove fromPos toPos) := rfl
    exact h.hostRequest hsound hop hundisputed
  | hostRequestJump pos =>
    have hop : requestOf (.jumpStarted { square := pos }) = some (.requestJump pos) := rfl
    exact h.hostRequest hsound hop hundisputed
  | hostTick => exact h.hostTick hsound
  | clientTick => exact h.clientTick
  | clientApply => exact h.clientApply hsound hundisputed

theorem linked_run {system : System} {ops : List SystemOp} (hsound : system.Sound)
    (h : system.Linked) (hundisputed : Transition.Along step Undisputed system ops) :
    (system.run ops).Linked := by
  induction ops generalizing system with
  | nil => exact h
  | cons op ops ih => exact ih (hsound.step op) (h.step hsound hundisputed.1) hundisputed.2

/-- Once nothing is in flight, both boards show what they were to show. -/
theorem Linked.sameKinds {system : System} (h : system.Linked) (hsettled : system.Settled) :
    kinds system.host.board = kinds system.client.board := by
  obtain ⟨hpending, hhost, hclient⟩ := hsettled
  rw [← GameEngine.destined_of_activeMotions hhost, h.destined, hpending, Transition.run_nil,
    GameEngine.destined_of_activeMotions hclient]

/-- The boards of host and client converge if all events are applied on time, or if no motion ever
contests another one and no start is refused by the client. -/
theorem converged_of_onTime_or_undisputed (hostBefore clientBefore : GameEngine)
    (ops : List SystemOp)
    (h : Transition.Along step OnTime (start hostBefore clientBefore) ops ∨
      Transition.Along step Undisputed (start hostBefore clientBefore) ops)
    (hsettled : ((start hostBefore clientBefore).run ops).Settled) :
    ((start hostBefore clientBefore).run ops).Converged := by
  have hstart := sound_start hostBefore clientBefore
  have hsound : ((start hostBefore clientBefore).run ops).Sound :=
    Transition.run_invariant step (fun _ op hstate ↦ hstate.step op) hstart ops
  refine ⟨?_, fun hover _ ↦ (hsound.sameWinner hsettled.1 hover).2.symm⟩
  rcases h with hontime | hundisputed
  · have hfollows := follows_run hstart (follows_start hostBefore clientBefore) hontime hsettled.1
    exact funext (hfollows.sameKinds hsound hsettled).kind
  · exact (linked_run hstart (linked_start hostBefore clientBefore) hundisputed).sameKinds hsettled

/-- A knight and a pawn reach the same square in one frame. The client lags ten frames behind. -/
def contestedStarts : List SystemOp :=
  [.hostRequestMove ⟨7, 1⟩ ⟨5, 2⟩] ++ List.replicate 62 .hostTick ++
    [.hostRequestMove ⟨6, 2⟩ ⟨5, 2⟩] ++ List.replicate 64 .hostTick ++
    List.replicate 10 .clientTick ++ [.clientApply] ++ List.replicate 62 .clientTick ++
    [.clientApply] ++ List.replicate 64 .clientTick ++ [.clientApply]

/-- Two pawns start one after the other on the host, and in the same frame on the client. -/
def delayedStarts : List SystemOp :=
  [.hostRequestMove ⟨6, 4⟩ ⟨5, 4⟩] ++ List.replicate 4 .hostTick ++
    [.hostRequestMove ⟨6, 0⟩ ⟨5, 0⟩] ++ List.replicate 63 .hostTick ++
    [.clientApply, .clientApply] ++ List.replicate 63 .clientTick ++ [.clientApply, .clientApply]

theorem converged_contested_and_delayed :
    let engine : GameEngine := { board := Io.setupStandardBoard }
    ((start engine engine).run contestedStarts).Converged ∧
      ((start engine engine).run delayedStarts).Converged :=
  ⟨converged_of_onTime_or_undisputed _ _ _ (.inl (by decide +kernel)) (by decide +kernel),
    converged_of_onTime_or_undisputed _ _ _ (.inr (by decide +kernel)) (by decide +kernel)⟩

/-- The queen follows the pawn when it has made way. Both starts reach the client in one frame, and
the client refuses the second one, because on its board the pawn is still in the way. When the
pawn's move is over, the report of the queen's move has already been dismissed. -/
def lateStarts : List SystemOp :=
  [.hostRequestMove ⟨6, 4⟩ ⟨5, 4⟩] ++ List.replicate 63 .hostTick ++
    [.hostRequestMove ⟨7, 4⟩ ⟨6, 4⟩] ++ List.replicate 63 .hostTick ++
    List.replicate 4 .clientApply ++ List.replicate 63 .clientTick

/-- Then the boards differ, although all events have been applied and nothing is in flight. -/
theorem not_converged_lateStarts :
    let engine : GameEngine := { board := Io.setupStandardBoard }
    let system := (start engine engine).run lateStarts
    system.Settled ∧ ¬ system.Converged ∧
      system.host.board.cell ⟨6, 4⟩ = (Piece.of .queen .white).setMoveCooldown 1000 ∧
      system.client.board.cell ⟨7, 4⟩ = Piece.of .queen .white := by
  intro engine system
  have hshown : system.Settled ∧
      system.host.board.cell ⟨6, 4⟩ = (Piece.of .queen .white).setMoveCooldown 1000 ∧
      system.client.board.cell ⟨6, 4⟩ = Piece.empty ∧
      system.client.board.cell ⟨7, 4⟩ = Piece.of .queen .white := by
    decide +kernel
  obtain ⟨hsettled, hhost, hclient, hqueen⟩ := hshown
  refine ⟨hsettled, fun hconverged ↦ ?_, hhost, hqueen⟩
  have hsame := congrFun hconverged.1 ⟨6, 4⟩
  rw [kinds, kinds, hhost, hclient] at hsame
  exact absurd hsame (by decide)

end System

end KongFuChess.Network
