import KongFuChess.Library.Journal
import KongFuChess.Network.Delivery

/-!
# When the client's board converges to the host's

The client starts a motion when it reads that the host has started it, and from then on measures
its time by its own clock. Late messages therefore shift motions and cooldowns against each other,
and a start that the host has accepted may be refused by the client.

The boards converge if every start is applied after as many frames of the client, counted from the
start before it, as the host has played between the two, or if both sides are at rest when the
host publishes it and when the client applies it; and if no report of a completed motion is taken
for one whose start was missed. The client is then a delayed copy of a state that the host was in,
or will be in, and a journal of the starts still to be applied leads from that state to the host.
-/

namespace KongFuChess.Network

open Model Realtime Rules Events Engine

namespace System

/-- A start is applied as many frames after the one before as the host has played between the two,
or at rest if the host was at rest. A report does not make the client repeat its motion. -/
def ArrivesOnTime (system : System) (delivery : Delivery) : Prop :=
  ((requestOf delivery.event).isSome → system.clientFrame = delivery.hostFrame ∨
    (delivery.hostQuiet && system.client.quiet) = true) ∧
  (requestOf delivery.event = none → takesFallback system.client delivery.event = false)

instance (system : System) (delivery : Delivery) : Decidable (system.ArrivesOnTime delivery) :=
  inferInstanceAs (Decidable (_ ∧ _))

def OnTime (system : System) : SystemOp → Prop
  | .clientApply => ∀ delivery ∈ system.pending.head?, system.ArrivesOnTime delivery
  | _ => True

instance (system : System) (op : SystemOp) : Decidable (system.OnTime op) :=
  match op with
  | .clientApply => inferInstanceAs (Decidable (∀ delivery ∈ system.pending.head?, _))
  | .hostRequestMove .. | .hostRequestJump _ | .hostTick | .clientTick => .isTrue trivial

/-- The starts that the client has yet to apply. -/
def starts (system : System) : List Delivery :=
  system.pending.filter fun delivery ↦ (requestOf delivery.event).isSome

/-! ## No start comes too late -/

/-- The client has not passed the frame of the next start, unless the host was at rest in it. -/
def InTime (system : System) : Prop :=
  ∀ first, system.starts.head? = some first →
    system.clientFrame ≤ first.hostFrame ∨ first.hostQuiet = true

theorem inTime_of_inTime_hostPerform {system : System} {op : Op} {hostFrames : ℕ}
    (h : (system.hostPerform op hostFrames).InTime) : system.InTime := by
  intro first hfirst
  rw [starts] at hfirst
  refine h first ?_
  rw [starts, hostPerform, List.filter_append, List.head?_append, hfirst]
  rfl

/-- In a run in which all events are applied on time, no start is ever too late. -/
theorem inTime_of_onTime {system : System} {ops : List SystemOp}
    (h : Transition.Along step OnTime system ops) (hpending : (system.run ops).pending = []) :
    system.InTime := by
  induction ops generalizing system with
  | nil =>
    intro first hfirst
    have hnone : system.pending = [] := hpending
    simp [starts, hnone] at hfirst
  | cons op ops ih =>
    have hnext := ih h.2 hpending
    cases op with
    | hostRequestMove | hostRequestJump | hostTick => exact inTime_of_inTime_hostPerform hnext
    | clientTick =>
      exact fun first hfirst ↦ (hnext first hfirst).imp_left fun hle ↦ (Nat.le_succ _).trans hle
    | clientApply =>
      intro first hfirst
      cases hqueue : system.pending with
      | nil => simp [starts, hqueue] at hfirst
      | cons delivery rest =>
        have hontime := (h.1 delivery (by rw [hqueue]; rfl)).1
        cases hstart : (requestOf delivery.event).isSome with
        | true =>
          obtain rfl : delivery = first := by simpa [starts, hqueue, hstart] using hfirst
          rw [Bool.and_eq_true] at hontime
          exact (hontime hstart).imp (fun heq ↦ heq.le) fun hquiet ↦ hquiet.1
        | false =>
          have hnext' := hnext first
          simp only [step, clientApply, hqueue, starts, hstart] at hnext'
          exact hnext' (by simpa [starts, hqueue, hstart] using hfirst)

/-! ## The client follows the host -/

/-- The start has been accepted in this state of the host, and in this frame. -/
structure Due (engine : GameEngine) (frame : ℕ) (delivery : Delivery) : Prop where
  accepted : ∃ op, requestOf delivery.event = some op ∧ engine.answer op = some true
  frame : delivery.hostFrame = frame
  quiet : delivery.hostQuiet = engine.quiet

def playFrame (engine : GameEngine) : GameEngine := engine.advanceTime kFrameMs

/-- The request that the delivery reports, made again. -/
def repeatStart (engine : GameEngine) (delivery : Delivery) : GameEngine :=
  match requestOf delivery.event with
  | none => engine
  | some op => engine.step op

abbrev Leads : GameEngine → ℕ → List Delivery → GameEngine → ℕ → Prop :=
  Journal.Leads playFrame repeatStart Due

/-- The client shows a state that the host has left behind, and the starts on their way lead from
it to the host. While the client waits for a start at rest, it may have passed its frame. -/
structure Behind (system : System) (shown : GameEngine) (frame : ℕ) : Prop where
  journal : Leads shown frame system.starts system.host system.hostFrames
  place : system.clientFrame = frame ∨
    frame < system.clientFrame ∧ shown.quiet = true ∧
      ∃ first, system.starts.head? = some first ∧ first.hostFrame = frame
  agrees : system.client.isGameOver = true → system.starts = [] ∧ system.host.isGameOver = true

/-- The client shows a state that the host will be in, if it starts nothing before. -/
structure Ahead (system : System) (shown : GameEngine) : Prop where
  starts : system.starts = []
  journal : Leads system.host system.hostFrames [] shown system.clientFrame
  agrees : system.client.isGameOver = true → shown.isGameOver = true

/-- The client is a delayed copy of a state that the host was in or will be in. -/
def Follows (system : System) : Prop :=
  ∃ shown delta, GameEngine.Replays delta shown system.client ∧
    (shown.isGameOver = true → system.client.isGameOver = true) ∧
    ((∃ frame, system.Behind shown frame) ∨ system.Ahead shown)

theorem follows_start (hostBefore clientBefore : GameEngine) :
    (start hostBefore clientBefore).Follows := by
  refine ⟨(start hostBefore clientBefore).host, 0, ?_, fun hover ↦ hover, .inl ⟨0, ?_⟩⟩
  · exact ⟨rfl, rfl, rfl, rfl, fun _ ↦ rfl, fun _ ↦ rfl⟩
  · exact ⟨.done _ _, .inl rfl, fun hover ↦ absurd hover Bool.false_ne_true⟩

/-! ### Facts about journals -/

section Journals

variable {engine later : GameEngine} {frame laterFrame : ℕ} {entries : List Delivery}

theorem over_playFrame (h : engine.isGameOver = true) : (playFrame engine).isGameOver = true :=
  (GameEngine.over_advanceTime h kFrameMs).1

/-- A verdict in the state shown is one of the host, and no start follows it. -/
theorem over_of_leads (h : Leads engine frame entries later laterFrame)
    (hover : engine.isGameOver = true) : entries = [] ∧ later.isGameOver = true := by
  have hnil : entries = [] := by
    refine h.nil_of_stuck (P := fun state ↦ state.isGameOver = true) (fun _ ↦ over_playFrame)
      (fun state _ entry hstate hdue ↦ ?_) hover
    obtain ⟨op, -, haccepted⟩ := hdue.accepted
    simp [GameEngine.not_over_of_answer haccepted] at hstate
  subst hnil
  exact ⟨rfl, h.nil_invariant (P := fun state ↦ state.isGameOver = true) (fun _ ↦ over_playFrame)
    hover⟩

/-- Waiting at rest. -/
theorem replays_of_leads (h : Leads engine frame [] later laterFrame)
    (hpremoves : ∀ source, engine.premoves source = none) (hquiet : engine.quiet = true) :
    (∃ delta, GameEngine.Replays delta engine later) ∧
      later.isGameOver = engine.isGameOver := by
  refine h.nil_invariant (P := fun state ↦
    (∃ delta, GameEngine.Replays delta engine state) ∧ state.isGameOver = engine.isGameOver)
    ?_ ⟨⟨0, .refl hpremoves⟩, rfl⟩
  rintro state ⟨⟨delta, hreplays⟩, hover⟩
  have hquiet' := hreplays.quiet_eq.trans hquiet
  refine ⟨⟨_, hreplays.trans
    (GameEngine.replays_advanceTime_of_quiet hquiet' hreplays.noPremoves'
      (Int.natCast_nonneg _))⟩, ?_⟩
  have hactive := GameEngine.activeMotions_of_quiet hquiet'
  exact (GameEngine.isGameOver_of_activeMotions hactive _).trans hover

/-- Without motions and starts the board keeps its pieces. -/
theorem sameKinds_of_leads (h : Leads engine frame [] later laterFrame)
    (hpremoves : ∀ source, engine.premoves source = none) (hactive : engine.activeMotions = []) :
    SameKinds later.board engine.board := by
  refine (h.nil_invariant (P := fun state ↦ SameKinds state.board engine.board ∧
    state.activeMotions = [] ∧ ∀ source, state.premoves source = none) ?_
    ⟨.refl _, hactive, hpremoves⟩).1
  rintro state ⟨hsame, hactive, hpremoves⟩
  obtain ⟨hboard, hactive'⟩ := GameEngine.advanceTime_of_activeMotions hactive hpremoves kFrameMs
  refine ⟨?_, hactive', ((GameEngine.Replays.refl hpremoves).advanceTime _).noPremoves⟩
  rw [playFrame, hboard]
  exact (sameKinds_decreaseAllCooldowns _ _).trans hsame

end Journals

/-! ### The steps of the host -/

theorem starts_append {system later : System} {added : List Delivery}
    (h : later.pending = system.pending ++ added) :
    later.starts = system.starts ++
      added.filter fun delivery ↦ (requestOf delivery.event).isSome := by
  rw [starts, h, List.filter_append, starts]

theorem starts_hostTick {system : System} (hsound : system.Sound) :
    (system.step .hostTick).starts = system.starts := by
  rw [starts_append (congrArg pending hsound.hostTick_eq), List.filter_eq_nil_iff.2,
    List.append_nil]
  intro delivery hdelivery
  obtain ⟨event, hevent, rfl⟩ := List.mem_map.1 hdelivery
  simp [requestOf_of_mem_announced hevent]

theorem Follows.hostTick {system : System} (h : system.Follows) (hsound : system.Sound) :
    (system.step .hostTick).Follows := by
  have hstarts := starts_hostTick hsound
  obtain ⟨shown, delta, hreplays, hover, hplace⟩ := h
  rw [hsound.hostTick_eq] at hstarts ⊢
  rcases hplace with ⟨frame, hbehind⟩ | hahead
  · refine ⟨shown, delta, hreplays, hover, .inl ⟨frame, ?_, ?_, ?_⟩⟩
    · rw [hstarts]
      exact hbehind.journal.andTick
    · rw [hstarts]
      exact hbehind.place
    · intro hclient
      obtain ⟨hnone, hhost⟩ := hbehind.agrees hclient
      exact ⟨hstarts.trans hnone, over_playFrame hhost⟩
  · rcases hahead.journal.inversion with ⟨-, rfl, hframe⟩ | hrest | ⟨_, _, hcons, -⟩
    · refine ⟨system.host, delta, hreplays, hover, .inl ⟨system.hostFrames, ?_, ?_, ?_⟩⟩
      · rw [hstarts, hahead.starts]
        exact .tick (.done _ _)
      · exact .inl hframe
      · exact fun hclient ↦ ⟨hstarts.trans hahead.starts, over_playFrame (hahead.agrees hclient)⟩
    · exact ⟨shown, delta, hreplays, hover,
        .inr ⟨hstarts.trans hahead.starts, hrest, hahead.agrees⟩⟩
    · exact absurd hcons (List.cons_ne_nil _ _).symm

/-- An accepted request sends one start, which is due. -/
theorem starts_hostAccept {system : System} (hsound : system.Sound) {op : Op}
    (haccepted : system.host.answer op = some true) :
    ∃ delivery, Due system.host system.hostFrames delivery ∧
      repeatStart system.host delivery = system.host.step op ∧
      (system.hostPerform op system.hostFrames).starts = system.starts ++ [delivery] := by
  obtain ⟨event, hop, -, heq⟩ := hsound.hostAccept haccepted
  refine ⟨⟨event, system.hostFrames, system.host.quiet⟩, ⟨⟨op, hop, haccepted⟩, rfl, rfl⟩, ?_, ?_⟩
  · simp [repeatStart, hop]
  · rw [starts_append (congrArg pending heq)]
    simp [deliveries, hop]

section HostAccept

variable {system : System} {op : Op} {shown : GameEngine} {delta : ℤ}

theorem Behind.hostAccept {frame : ℕ} (h : system.Behind shown frame) (hsound : system.Sound)
    (haccepted : system.host.answer op = some true) :
    (system.hostPerform op system.hostFrames).Behind shown frame := by
  obtain ⟨delivery, hdue, hrepeat, hstarts⟩ := starts_hostAccept hsound haccepted
  have hnotOver := GameEngine.not_over_of_answer haccepted
  refine ⟨?_, ?_, ?_⟩
  · rw [hstarts]
    change Leads shown frame (system.starts ++ [delivery]) (system.host.step op) system.hostFrames
    rw [← hrepeat]
    exact h.journal.andPerform hdue
  · apply h.place.imp_right
    intro hlate
    obtain ⟨hlt, hquiet, first, hfirst, hframe⟩ := hlate
    refine ⟨hlt, hquiet, first, ?_, hframe⟩
    rw [hstarts, List.head?_append, hfirst]
    rfl
  · intro hclient
    simp [(h.agrees hclient).2] at hnotOver

/-- A client that is ahead has only waited with the host at rest, or the start would be late. -/
theorem Ahead.hostAccept (h : system.Ahead shown) (hsound : system.Sound)
    (hreplays : GameEngine.Replays delta shown system.client)
    (hover : shown.isGameOver = true → system.client.isGameOver = true)
    (haccepted : system.host.answer op = some true)
    (htime : (system.hostPerform op system.hostFrames).InTime) :
    (system.hostPerform op system.hostFrames).Follows := by
  obtain ⟨delivery, hdue, hrepeat, hstarts⟩ := starts_hostAccept hsound haccepted
  rw [h.starts, List.nil_append] at hstarts
  have hfirst : (system.hostPerform op system.hostFrames).starts.head? = some delivery := by
    rw [hstarts]
    rfl
  have hnotOver := GameEngine.not_over_of_answer haccepted
  have hjournal : Leads system.host system.hostFrames
      (system.hostPerform op system.hostFrames).starts (system.host.step op)
      system.hostFrames := by
    rw [hstarts, ← hrepeat]
    exact .perform hdue (.done _ _)
  have hnone : shown.isGameOver = system.host.isGameOver → system.client.isGameOver = false := by
    intro hsame
    by_contra hclient
    have hshown := h.agrees (by simpa using hclient)
    simp [hsame, hnotOver] at hshown
  rcases h.journal.inversion with ⟨-, rfl, hframe⟩ | hrest | ⟨_, _, hcons, -⟩
  · exact ⟨system.host, delta, hreplays, hover, .inl ⟨system.hostFrames, hjournal, .inl hframe,
      fun hclient ↦ absurd hclient (by simp [hostPerform, hnone rfl])⟩⟩
  · have hlate : system.hostFrames < system.clientFrame := hrest.le
    have hquiet : system.host.quiet = true := by
      have hintime := htime delivery hfirst
      rw [hdue.quiet, hdue.frame] at hintime
      exact hintime.resolve_left (not_le.2 hlate)
    obtain ⟨⟨delta', hwaited⟩, hsame⟩ := replays_of_leads h.journal hsound.noPremoves hquiet
    refine ⟨system.host, _, hwaited.trans hreplays, fun hhost ↦ ?_,
      .inl ⟨system.hostFrames, hjournal, .inr ⟨hlate, hquiet, delivery, hfirst, hdue.frame⟩, ?_⟩⟩
    · simp [hnotOver] at hhost
    · exact fun hclient ↦ absurd hclient (by simp [hostPerform, hnone hsame])
  · exact absurd hcons (List.cons_ne_nil _ _).symm

theorem Follows.hostAccept (h : system.Follows) (hsound : system.Sound)
    (haccepted : system.host.answer op = some true)
    (htime : (system.hostPerform op system.hostFrames).InTime) :
    (system.hostPerform op system.hostFrames).Follows := by
  obtain ⟨shown, delta, hreplays, hover, ⟨frame, hbehind⟩ | hahead⟩ := h
  · exact ⟨shown, delta, hreplays, hover, .inl ⟨frame, hbehind.hostAccept hsound haccepted⟩⟩
  · exact hahead.hostAccept hsound hreplays hover haccepted htime

end HostAccept

/-! ### The steps of the client -/

/-- Playing on, client and state shown come to the same verdict. -/
theorem agrees_playFrame {delta : ℤ} {shown client : GameEngine}
    (hreplays : GameEngine.Replays delta shown client)
    (hover : shown.isGameOver = true → client.isGameOver = true) :
    ((playFrame shown).isGameOver = true → (playFrame client).isGameOver = true) ∧
      ((playFrame client).isGameOver = true → client.isGameOver = false →
        (playFrame shown).isGameOver = true) := by
  cases hclient : client.isGameOver with
  | true => exact ⟨fun _ ↦ over_playFrame hclient, fun _ hnot ↦ absurd hnot (by simp)⟩
  | false =>
    have hshown : shown.isGameOver = false := by
      by_contra hnot
      simp [hover (by simpa using hnot)] at hclient
    have hsame := hreplays.isGameOver_advanceTime kFrameMs hshown hclient
    exact ⟨fun h ↦ hsame.trans h, fun h _ ↦ hsame.symm.trans h⟩

theorem Behind.clientTick {system : System} {shown : GameEngine} {delta : ℤ} {frame : ℕ}
    (h : system.Behind shown frame) (hreplays : GameEngine.Replays delta shown system.client)
    (hover : shown.isGameOver = true → system.client.isGameOver = true)
    (htime : (system.step .clientTick).InTime) : (system.step .clientTick).Follows := by
  obtain ⟨hover', hverdict⟩ := agrees_playFrame hreplays hover
  have hnext : GameEngine.Replays delta (playFrame shown) (playFrame system.client) :=
    hreplays.advanceTime kFrameMs
  have hagrees : Leads (playFrame shown) (frame + 1) system.starts system.host system.hostFrames →
      (playFrame system.client).isGameOver = true →
        system.starts = [] ∧ system.host.isGameOver = true := by
    intro hjournal hclient
    cases hbefore : system.client.isGameOver with
    | true => exact h.agrees hbefore
    | false => exact over_of_leads hjournal (hverdict hclient hbefore)
  rcases h.journal.inversion with ⟨hnone, hhost, hframe⟩ | hrest | ⟨first, rest, hcons, hdue, -⟩
  · -- the client has caught up with the host and overtakes it
    have hplace : system.clientFrame = frame := by
      refine h.place.resolve_right ?_
      rintro ⟨-, -, first, hfirst, -⟩
      simp [hnone] at hfirst
    refine ⟨playFrame shown, delta, hnext, hover', .inr ⟨hnone, ?_, fun hclient ↦ ?_⟩⟩
    · change Leads system.host system.hostFrames [] (playFrame shown) (system.clientFrame + 1)
      rw [hhost, hframe, hplace]
      exact .tick (.done _ _)
    · cases hbefore : system.client.isGameOver with
      | true => exact over_playFrame (hhost ▸ (h.agrees hbefore).2)
      | false => exact hverdict hclient hbefore
  · -- the host has played the next frame as well
    refine ⟨playFrame shown, delta, hnext, hover', .inl ⟨frame + 1, hrest, ?_, hagrees hrest⟩⟩
    rcases h.place with hplace | ⟨-, -, first, hfirst, hframe⟩
    · exact .inl (congrArg (· + 1) hplace)
    · obtain ⟨rest, hcons⟩ := List.head?_eq_some_iff.1 hfirst
      rw [hcons] at hrest
      obtain ⟨before, due, hbefore, hdue, -⟩ := hrest.split
      have hle := hbefore.le
      rw [← hdue.frame, hframe] at hle
      exact absurd hle (Nat.not_succ_le_self _)
  · -- a start is due, and both sides are at rest
    have hle : frame ≤ system.clientFrame := by
      rcases h.place with hplace | ⟨hlt, -⟩
      · exact hplace.ge
      · exact hlt.le
    have hfirst : system.starts.head? = some first := by rw [hcons]; rfl
    have hquiet : shown.quiet = true := by
      have hlate := (htime first hfirst).resolve_left fun hearly ↦ by
        rw [hdue.frame] at hearly
        exact absurd (hle.trans_lt (Nat.lt_of_succ_le hearly)) (lt_irrefl _)
      rwa [hdue.quiet] at hlate
    have hrest : system.client.quiet = true := hreplays.quiet_eq.trans hquiet
    have hwaited := GameEngine.replays_advanceTime_of_quiet hrest hreplays.noPremoves'
      (Int.natCast_nonneg kFrameMs)
    have hsame := GameEngine.isGameOver_of_activeMotions
      (GameEngine.activeMotions_of_quiet hrest) (kFrameMs : ℤ)
    refine ⟨shown, _, hreplays.trans hwaited, fun hshown ↦ hsame.trans (hover hshown),
      .inl ⟨frame, h.journal, .inr ⟨Nat.lt_succ_of_le hle, hquiet, first, hfirst, hdue.frame⟩, ?_⟩⟩
    intro hclient
    obtain ⟨hnone, -⟩ := h.agrees (hsame.symm.trans hclient)
    simp [hcons] at hnone

theorem Ahead.clientTick {system : System} {shown : GameEngine} {delta : ℤ}
    (h : system.Ahead shown) (hreplays : GameEngine.Replays delta shown system.client)
    (hover : shown.isGameOver = true → system.client.isGameOver = true) :
    (system.step .clientTick).Follows := by
  obtain ⟨hover', hverdict⟩ := agrees_playFrame hreplays hover
  refine ⟨playFrame shown, delta, hreplays.advanceTime kFrameMs, hover',
    .inr ⟨h.starts, h.journal.andTick, fun hclient ↦ ?_⟩⟩
  cases hbefore : system.client.isGameOver with
  | true => exact over_playFrame (h.agrees hbefore)
  | false => exact hverdict hclient hbefore

/-- When a start arrives on time, the client is a copy of the host as it was when it accepted the
request. -/
theorem Behind.replays_of_due {system : System} {shown before : GameEngine} {delta : ℤ}
    {frame due : ℕ} {delivery : Delivery} (h : system.Behind shown frame)
    (hreplays : GameEngine.Replays delta shown system.client)
    (hfirst : system.starts.head? = some delivery) (hbefore : Leads shown frame [] before due)
    (hdue : Due before due delivery)
    (hontime : system.clientFrame = delivery.hostFrame ∨
      (delivery.hostQuiet && system.client.quiet) = true) :
    ∃ delta, GameEngine.Replays delta before system.client := by
  rcases hontime with hsame | hquiet
  · have hplace : system.clientFrame = frame := by
      apply h.place.resolve_right
      rintro ⟨hlt, -, first, hfirst', hframe⟩
      obtain rfl : delivery = first := Option.some.inj (hfirst.symm.trans hfirst')
      omega
    have hle : due ≤ frame := by rw [← hdue.frame, ← hsame, hplace]
    obtain rfl := hbefore.eq_of_le hle
    exact ⟨delta, hreplays⟩
  · rw [Bool.and_eq_true, hreplays.quiet_eq] at hquiet
    obtain ⟨⟨waited, hwaited⟩, -⟩ :=
      replays_of_leads hbefore hreplays.noPremoves hquiet.2
    exact ⟨_, hwaited.symm.trans hreplays⟩

/-- A start that arrives on time is repeated. -/
theorem Follows.clientApply_start {system : System} (h : system.Follows) (hsound : system.Sound)
    {delivery : Delivery} {rest : List Delivery} (hpending : system.pending = delivery :: rest)
    {op : Op} (hop : requestOf delivery.event = some op)
    (hontime : system.clientFrame = delivery.hostFrame ∨
      (delivery.hostQuiet && system.client.quiet) = true) : system.clientApply.Follows := by
  have hnameable := hsound.nameable delivery (by simp [hpending])
  have hstarts : system.starts = delivery :: system.clientApply.starts := by
    simp [starts, clientApply, hpending, hop]
  have hclient : system.clientApply.client = system.client.step op := by
    simp only [clientApply, hpending, applyMessage_serialize hnameable]
    exact applyEvent_start hop system.client
  have hframe : system.clientApply.clientFrame = delivery.hostFrame := by
    simp [clientApply, hpending, hop]
  have hhost : system.clientApply.host = system.host ∧
      system.clientApply.hostFrames = system.hostFrames := by
    simp [clientApply, hpending]
  obtain ⟨shown, delta, hreplays, -, ⟨frame, hbehind⟩ | hahead⟩ := h
  swap
  · exact absurd hahead.starts (by simp [hstarts])
  have hnotOver : system.client.isGameOver = false := by
    by_contra hover
    have hnone := (hbehind.agrees (by simpa using hover)).1
    simp [hstarts] at hnone
  have hjournal := hbehind.journal
  rw [hstarts] at hjournal
  obtain ⟨before, due, hbefore, hdue, hafter⟩ := hjournal.split
  obtain ⟨op', hop', haccepted⟩ := hdue.accepted
  obtain rfl : op = op' := Option.some.inj (hop.symm.trans hop')
  have hrepeat : repeatStart before delivery = before.step op := by simp [repeatStart, hop]
  obtain ⟨delta', hcopy⟩ := hbehind.replays_of_due hreplays (by rw [hstarts]; rfl) hbefore hdue
    hontime
  obtain ⟨haccepted', hstep⟩ := hcopy.accept haccepted hnotOver
  have hnever : ∀ state : GameEngine, state.answer op = some true →
      (state.step op).isGameOver ≠ true := fun state hstate ↦ by
    simp [GameEngine.isGameOver_step_of_answer hstate]
  refine ⟨before.step op, delta', by rwa [hclient], fun hover ↦ absurd hover (hnever _ haccepted),
    .inl ⟨due, ?_, .inl (hframe.trans hdue.frame), ?_⟩⟩
  · rw [hhost.1, hhost.2, ← hrepeat]
    exact hafter
  · rw [hclient]
    exact fun hover ↦ absurd hover (hnever _ haccepted')

/-- An announced end of the game agrees with the host, and no start follows it. -/
theorem Follows.clientApply_ended {system : System} (h : system.Follows) (hsound : system.Sound)
    {delivery : Delivery} {rest : List Delivery} (hpending : system.pending = delivery :: rest)
    {winner : Color} (hended : delivery.event = .gameEnded ⟨winner⟩) :
    system.clientApply.Follows := by
  have hnameable := hsound.nameable delivery (by simp [hpending])
  have hover := (hsound.ended delivery (by simp [hpending]) winner hended).1
  have hop : requestOf delivery.event = none := by rw [hended]; rfl
  have hnone : system.clientApply.starts = [] := by
    have hlast := hsound.last
    rw [hpending, List.pairwise_cons] at hlast
    rw [starts, List.filter_eq_nil_iff]
    intro later hlater
    have hmem : later ∈ rest := by simpa [clientApply, hpending] using hlater
    simp [hlast.1 later hmem winner hended]
  have hstarts : system.clientApply.starts = system.starts := by
    simp [starts, clientApply, hpending, hop]
  have hclient : system.clientApply.client = system.client.applyRemoteGameEnded winner := by
    simp only [clientApply, hpending, applyMessage_serialize hnameable]
    rw [hended]
    rfl
  have hrest : system.clientApply.host = system.host ∧
      system.clientApply.hostFrames = system.hostFrames ∧
      system.clientApply.clientFrame = system.clientFrame := by
    simp [clientApply, hpending, hop]
  obtain ⟨shown, delta, hreplays, -, hplace⟩ := h
  refine ⟨shown, delta, by rw [hclient]; exact { hreplays with }, fun _ ↦ by rw [hclient]; rfl, ?_⟩
  rcases hplace with ⟨frame, hbehind⟩ | hahead
  · refine .inl ⟨frame, ?_, ?_, fun _ ↦ ⟨hnone, ?_⟩⟩
    · rw [hstarts, hrest.1, hrest.2.1]
      exact hbehind.journal
    · rw [hstarts, hrest.2.2]
      exact hbehind.place
    · rw [hrest.1]
      exact hover
  · refine .inr ⟨hnone, ?_, fun _ ↦ ?_⟩
    · rw [hrest.1, hrest.2.1, hrest.2.2]
      exact hahead.journal
    · exact (over_of_leads hahead.journal hover).2

/-- A report that takes no fallback leaves everything as it is. -/
theorem Follows.clientApply_report {system : System} (h : system.Follows) (hsound : system.Sound)
    {delivery : Delivery} {rest : List Delivery} (hpending : system.pending = delivery :: rest)
    (hop : requestOf delivery.event = none)
    (hended : ∀ winner, delivery.event ≠ .gameEnded ⟨winner⟩)
    (hreport : takesFallback system.client delivery.event = false) :
    system.clientApply.Follows := by
  have hnameable := hsound.nameable delivery (by simp [hpending])
  have hsame : system.clientApply = { system with pending := rest } := by
    simp only [clientApply, hpending, applyMessage_serialize hnameable, hop,
      applyEvent_report hop hended hreport]
    rfl
  have hstarts : system.clientApply.starts = system.starts := by
    simp [starts, clientApply, hpending, hop]
  rw [hsame] at hstarts ⊢
  obtain ⟨shown, delta, hreplays, hover, hplace⟩ := h
  refine ⟨shown, delta, hreplays, hover, ?_⟩
  rcases hplace with ⟨frame, hbehind⟩ | hahead
  · refine .inl ⟨frame, ?_, ?_, ?_⟩
    · rw [hstarts]
      exact hbehind.journal
    · rw [hstarts]
      exact hbehind.place
    · rw [hstarts]
      exact hbehind.agrees
  · exact .inr ⟨hstarts.trans hahead.starts, hahead.journal, hahead.agrees⟩

theorem Follows.clientApply {system : System} (h : system.Follows) (hsound : system.Sound)
    (hontime : system.OnTime .clientApply) : system.clientApply.Follows := by
  cases hpending : system.pending with
  | nil =>
    have hsame : system.clientApply = system := by simp [System.clientApply, hpending]
    rwa [hsame]
  | cons delivery rest =>
    obtain ⟨hstart, hreport⟩ := hontime delivery (by rw [hpending]; rfl)
    cases hop : requestOf delivery.event with
    | some op => exact h.clientApply_start hsound hpending hop (hstart (by rw [hop]; rfl))
    | none =>
      by_cases hended : ∃ winner, delivery.event = .gameEnded ⟨winner⟩
      · obtain ⟨winner, hended⟩ := hended
        exact h.clientApply_ended hsound hpending hended
      · exact h.clientApply_report hsound hpending hop (fun winner heq ↦ hended ⟨winner, heq⟩)
          (hreport hop)

/-! ### Whole runs -/

theorem Follows.hostRequest {system : System} (h : system.Follows) (hsound : system.Sound)
    {op : Op} {event : GameEvent} (hop : requestOf event = some op)
    (htime : (system.hostPerform op system.hostFrames).InTime) :
    (system.hostPerform op system.hostFrames).Follows := by
  by_cases haccepted : system.host.answer op = some true
  · exact h.hostAccept hsound haccepted htime
  · rwa [hostPerform_of_refused hop haccepted]

theorem Follows.step {system : System} (h : system.Follows) (hsound : system.Sound) {op : SystemOp}
    (hontime : system.OnTime op) (htime : (system.step op).InTime) : (system.step op).Follows := by
  cases op with
  | hostRequestMove fromPos toPos =>
    have hop : requestOf (.moveStarted { fromPos := fromPos, toPos := toPos }) =
      some (.requestMove fromPos toPos) := rfl
    exact h.hostRequest hsound hop htime
  | hostRequestJump pos =>
    have hop : requestOf (.jumpStarted { square := pos }) = some (.requestJump pos) := rfl
    exact h.hostRequest hsound hop htime
  | hostTick => exact h.hostTick hsound
  | clientTick =>
    obtain ⟨shown, delta, hreplays, hover, ⟨frame, hbehind⟩ | hahead⟩ := h
    · exact hbehind.clientTick hreplays hover htime
    · exact hahead.clientTick hreplays hover
  | clientApply => exact h.clientApply hsound hontime

/-- In a run in which all events are applied, and all of them on time, the client follows the host
to the end. -/
theorem follows_run {system : System} {ops : List SystemOp} (hsound : system.Sound)
    (h : system.Follows) (hontime : Transition.Along step OnTime system ops)
    (hpending : (system.run ops).pending = []) : (system.run ops).Follows := by
  induction ops generalizing system with
  | nil => exact h
  | cons op ops ih =>
    have htime := inTime_of_onTime hontime.2 hpending
    exact ih (hsound.step op) (h.step hsound hontime.1 htime) hontime.2 hpending

/-- Once nothing is in flight, the delay does not show any more. -/
theorem Follows.sameKinds {system : System} (h : system.Follows) (hsound : system.Sound)
    (hsettled : system.Settled) : SameKinds system.host.board system.client.board := by
  obtain ⟨hpending, hhost, hclient⟩ := hsettled
  have hnone : system.starts = [] := by simp [starts, hpending]
  obtain ⟨shown, delta, hreplays, -, ⟨frame, hbehind⟩ | hahead⟩ := h
  · have hjournal := hbehind.journal
    rw [hnone] at hjournal
    have hactive : shown.activeMotions = [] := by
      simpa [hclient] using hreplays.activeMotions.symm
    rw [hreplays.board]
    exact sameKinds_of_leads hjournal hreplays.noPremoves hactive
  · rw [hreplays.board]
    exact (sameKinds_of_leads hahead.journal hsound.noPremoves hhost).symm

end System

end KongFuChess.Network
