import KongFuChess.Server.Names

/-!
# Grace periods and reserved seats

Two objects keep the players who are away: the disconnect manager how long they may be, and the
session manager which seat is theirs. A match that begins forgets all reserved seats and a match
that ends forgets all seats, while the grace entries go one by one. So the two agree as long as no
match begins while a player is away, and a player whose time is over is the only one who is away.
-/

namespace KongFuChess.Network

open Model Events Session Matchmaking

namespace WsServer

/-! ## The events on the bus -/

def Output.event : Output → Option GameEvent
  | .sent .. => none
  | .published event => some event

/-- What an operation publishes on the bus. -/
def events (server : WsServer) (op : Op) : List GameEvent :=
  (server.outputs op).filterMap Output.event

theorem filterMap_event_broadcast (server : WsServer) (message : ServerMessage) :
    (server.broadcast message).filterMap Output.event = [] := by
  simp [broadcast, Output.event]

theorem filterMap_event_publish (server : WsServer) (event : GameEvent) :
    (server.publish event).filterMap Output.event = [event] := by
  rw [publish, List.filterMap_cons, filterMap_event_broadcast]
  rfl

theorem filterMap_event_sendToConnection (server : WsServer) (connectionId : ConnectionId)
    (message : ServerMessage) :
    (server.sendToConnection connectionId message).filterMap Output.event = [] := by
  unfold sendToConnection
  split <;> rfl

theorem filterMap_event_handleLogin (server : WsServer) (connectionId : ConnectionId)
    (username : StdString) :
    (server.handleLogin connectionId username).1.filterMap Output.event = [] := by
  unfold handleLogin
  split
  · split
    · rw [List.filterMap_append, filterMap_event_broadcast]
      split <;> rfl
    · rfl
  · split <;> rfl

/-- The only events are the start of a match that a join begins and its end by a grace period. -/
theorem events_eq (server : WsServer) (op : Op) :
    server.events op =
      ((server.newMatch op).map fun result ↦
        GameEvent.gameStarted (server.session.beginMatch result).rosterSnapshot).toList ++
      ((server.graceWinner op).map fun winner ↦ GameEvent.gameEnded ⟨winner⟩).toList := by
  unfold events outputs
  cases op with
  | opened connectionId => rfl
  | login connectionId username =>
    rw [perform]
    split
    · exact filterMap_event_handleLogin ..
    · rfl
  | joinQueue connectionId record now =>
    have hwinner : server.graceWinner (.joinQueue connectionId record now) = none := rfl
    rw [perform, newMatch, hwinner]
    split
    · unfold handleJoinQueue
      cases server.joinGuard connectionId with
      | error message => rfl
      | ok username =>
        simp only [MatchmakingQueue.enqueue_eq]
        cases WaitingList.partner server.matchmakingQueue.isEligible server.matchmakingQueue.queue
          (newEntry connectionId username record now) with
        | none => rfl
        | some waiting =>
          simp only [Option.map_some, notifyMatch, List.filterMap_cons, List.filterMap_append,
            filterMap_event_sendToConnection, filterMap_event_publish]
          rfl
    · rfl
  | leaveQueue connectionId =>
    rw [perform]
    split
    · unfold handleLeaveQueue
      split <;> rfl
    · rfl
  | closed connectionId now =>
    rw [perform]
    split
    · unfold handleDisconnect
      split
      · exact filterMap_event_broadcast ..
      · rfl
    · rfl
  | queueTick now =>
    rw [perform, tickQueueTimeouts]
    simp only [List.filterMap_flatMap, filterMap_event_sendToConnection]
    exact List.flatMap_eq_nil_iff.2 fun _ _ ↦ rfl
  | graceTick now order =>
    have hmatch : server.newMatch (.graceTick now order) = none := rfl
    rw [perform, tickGrace, graceWinner, hmatch]
    split
    · rename_i heq
      rw [heq]
      rfl
    · rename_i heq
      rw [heq, filterMap_event_publish]
      rfl

/-! ## Agreement -/

/-- The players in grace are the players with a reserved seat. -/
structure GraceAgrees (server : WsServer) : Prop where
  agrees : ∀ username,
    (server.disconnectManager.graceEntryFor username).map (·.color) =
      server.session.reservedFor username
  clear : server.LobbyClear

/-- During a match no other match begins while a player is away, and a player whose time is over is
the only one away. -/
def OneGraceAtATime (server : WsServer) (op : Op) : Prop :=
  (server.session.phase = .inGame → (server.newMatch op).isSome = true →
      server.disconnectManager.graceEntries.size = 0) ∧
    match op with
    | .graceTick now _ =>
      (∃ grace ∈ server.disconnectManager.graceEntries.entries, grace.2.graceUntil ≤ now) →
        server.disconnectManager.graceEntries.size = 1
    | _ => True

instance (server : WsServer) (op : Op) : Decidable (server.OneGraceAtATime op) :=
  @instDecidableAnd _ _ inferInstance (match op with
    | .graceTick .. => inferInstanceAs (Decidable (_ → _))
    | .opened _ | .login .. | .joinQueue .. | .leaveQueue _ | .closed .. | .queueTick _ =>
      .isTrue trivial)

theorem graceAgrees_initial (port : ℤ) : (initial port).GraceAgrees where
  agrees := fun _ ↦ rfl
  clear := lobbyClear_initial port

theorem GraceAgrees.graceEntryFor_eq_none {server : WsServer} (h : server.GraceAgrees)
    (hlobby : server.session.phase = .lobby) (username : StdString) :
    server.disconnectManager.graceEntryFor username = none := by
  rw [← Option.map_eq_none_iff, h.agrees]
  exact h.clear.reserved hlobby username

/-- A match begins with nobody in grace. -/
theorem GraceAgrees.graceEntryFor_of_newMatch {server : WsServer} (h : server.GraceAgrees)
    {op : Op} (hcondition : server.OneGraceAtATime op) {result : MatchResult}
    (hmatch : server.newMatch op = some result) (username : StdString) :
    server.disconnectManager.graceEntryFor username = none := by
  cases hphase : server.session.phase with
  | lobby => exact h.graceEntryFor_eq_none hphase username
  | inGame =>
    have hnobody := hcondition.1 hphase (Option.isSome_iff_exists.2 ⟨_, hmatch⟩)
    exact Table.lookup_of_size_eq_zero hnobody username

theorem GraceAgrees.step {server : WsServer} (h : server.GraceAgrees) {op : Op}
    (hcondition : server.OneGraceAtATime op) : (server.step op).GraceAgrees := by
  have hclear := h.clear.step op
  have heffect := server.step_effect op
  generalize server.step op = later at heffect hclear ⊢
  refine ⟨fun name ↦ ?_, hclear⟩
  cases heffect with
  | unchanged | opened | loggedIn | seated | queued | leftQueue | queueTicked => exact h.agrees name
  | reconnected hopen hgrace hreserved =>
    simp only [DisconnectManager.graceEntryFor, DisconnectManager.onReconnect,
      Table.lookup_erase, SessionManager.reservedFor_takeSeat]
    split
    · rfl
    · exact h.agrees name
  | matched hjoins hopponent hmatch =>
    have hnobody := h.graceEntryFor_of_newMatch hcondition hmatch
    rw [hnobody, SessionManager.reservedFor_beginMatch]
    rfl
  | seatLost hopen hphase hlogin hcolor =>
    simp only [DisconnectManager.graceEntryFor, DisconnectManager.onDisconnect,
      Table.lookup_insert, SessionManager.reservedFor_reserve]
    split
    · rfl
    · exact h.agrees name
  | closed hopen hseat =>
    rw [SessionManager.reservedFor_disconnect]
    exact h.agrees name
  | @expired now order username entry hentry hover hwinner =>
    have honly := hcondition.2 ⟨⟨username, entry⟩, AList.mem_lookup_iff.1 hentry, hover⟩
    rw [DisconnectManager.graceEntryFor, DisconnectManager.onReconnect, Table.lookup_erase]
    split
    · rfl
    · rename_i hne
      rw [Table.lookup_of_size_eq_one honly (Option.isSome_iff_exists.2 ⟨_, hentry⟩) hne]
      rfl

/-! ## One result for each match -/

/-- Every result comes after the start of a match that has had none; `running` says whether there
is such a match. -/
def EndsOnce : Bool → List GameEvent → Prop
  | _, [] => True
  | _, .gameStarted _ :: rest => EndsOnce true rest
  | running, .gameEnded _ :: rest => running = true ∧ EndsOnce false rest
  | running, _ :: rest => EndsOnce running rest

/-- Only the end of a grace period ends a match. -/
theorem GraceAgrees.phase_of_graceWinner {server : WsServer} (h : server.GraceAgrees) {op : Op}
    {winner : Color} (hwinner : server.graceWinner op = some winner) :
    server.session.phase = .inGame ∧ (server.step op).session.phase = .lobby := by
  constructor
  · cases hphase : server.session.phase with
    | inGame => rfl
    | lobby =>
      cases op with
      | graceTick now order =>
        rcases server.disconnectManager.tick_cases now order with
          ⟨hnone, -⟩ | ⟨username, entry, hentry, -⟩
        · exact absurd (hwinner.symm.trans (congrArg Prod.fst hnone)) nofun
        · exact absurd (hentry.symm.trans (h.graceEntryFor_eq_none hphase username)) nofun
      | opened | login | joinQueue | leaveQueue | closed | queueTick => exact absurd hwinner nofun
  · rw [session_of_graceWinner hwinner]
    rfl

theorem GraceAgrees.endsOnce {server : WsServer} (h : server.GraceAgrees) {ops : List Op}
    (hcondition : Transition.Along WsServer.step OneGraceAtATime server ops) :
    EndsOnce (decide (server.session.phase = .inGame))
      (Transition.emissions WsServer.step events server ops) := by
  induction ops generalizing server with
  | nil => trivial
  | cons op ops ih =>
    have hlater := ih (h.step hcondition.1) hcondition.2
    rw [Transition.emissions_cons, events_eq]
    cases hmatch : server.newMatch op with
    | some result =>
      have hwinner : server.graceWinner op = none := by
        obtain ⟨connectionId, username, record, now, rfl, -⟩ := newMatch_eq_some hmatch
        rfl
      rw [(session_of_newMatch hmatch).1] at hlater
      rw [hwinner]
      exact hlater
    | none =>
      cases hwinner : server.graceWinner op with
      | none =>
        rw [(roster_step hmatch hwinner).1] at hlater
        exact hlater
      | some winner =>
        obtain ⟨hphase, hended⟩ := h.phase_of_graceWinner hwinner
        rw [hended] at hlater
        rw [hphase]
        exact ⟨rfl, hlater⟩

/-- As long as no match begins and no grace period ends while another player is away, the grace
entries and the reserved seats agree, a player in grace can come back, nobody is in grace once the
match is over or when the next one begins, and every match ends at most once. -/
theorem run_grace {port : ℤ} {ops : List Op}
    (hcondition : Transition.Along WsServer.step OneGraceAtATime (initial port) ops) :
    let reached := run (initial port) ops
    (∀ username, (reached.disconnectManager.graceEntryFor username).map (·.color) =
        reached.session.reservedFor username) ∧
      (∀ username, reached.disconnectManager.isInGrace username = true → ∀ connectionId,
        (reached.session.reconnect connectionId username).1 = .accepted) ∧
      (reached.session.phase = .lobby → ∀ username,
        reached.disconnectManager.graceEntryFor username = none) ∧
      Transition.Along WsServer.step (fun server op ↦ (server.newMatch op).isSome = true →
        ∀ username, server.disconnectManager.graceEntryFor username = none) (initial port) ops ∧
      EndsOnce false (Transition.emissions WsServer.step events (initial port) ops) := by
  intro reached
  have hinitial := graceAgrees_initial port
  have hreached : reached.GraceAgrees :=
    Transition.Along.invariant (fun _ _ h hop ↦ h.step hop) hinitial hcondition
  refine ⟨hreached.agrees, ?_, hreached.graceEntryFor_eq_none, ?_, hinitial.endsOnce hcondition⟩
  · intro username hgrace connectionId
    obtain ⟨entry, hentry⟩ := Option.isSome_iff_exists.1 hgrace
    have hreserved := hreached.agrees username
    rw [DisconnectManager.graceEntryFor, hentry, Option.map_some] at hreserved
    rw [SessionManager.reconnect_eq, ← hreserved]
  · refine Transition.Along.imp_of_invariant (I := GraceAgrees) ?_ hinitial hcondition
    intro server op h hop
    refine ⟨h.step hop, fun hmatch ↦ ?_⟩
    obtain ⟨result, hresult⟩ := Option.isSome_iff_exists.1 hmatch
    exact h.graceEntryFor_of_newMatch hop hresult

/-- Ann is away and comes back, then Bob is away for too long. -/
theorem run_grace_of_bob_away :
    EndsOnce false (Transition.emissions WsServer.step events (initial 0)
      (annMeetsBob ++ [.closed 1 0, .opened 3, .login 3 "ann".toList, .closed 2 0,
        .graceTick (milliseconds DisconnectConfig.kGraceMs) []])) :=
  (run_grace (by decide)).2.2.2.2

/-- Ann and Bob are both away for too long: Bob stays in grace when Ann's time is over, without a
reserved seat, and ends the match once more. -/
theorem grace_disagrees :
    let ops : List Op := annMeetsBob ++ [.closed 1 0, .closed 2 0,
      .graceTick (milliseconds DisconnectConfig.kGraceMs) ["ann".toList]]
    let reached := run (initial 0) ops
    (reached.session.phase = .lobby ∧
        reached.disconnectManager.isInGrace "bob".toList = true ∧
        reached.session.reservedFor "bob".toList = none) ∧
      (reached.session.reconnect 2 "bob".toList).1 = .unknownUser ∧
      ¬ EndsOnce false (Transition.emissions WsServer.step events (initial 0)
        (ops ++ [.graceTick (milliseconds DisconnectConfig.kGraceMs) []])) := by
  have hevents : Transition.emissions WsServer.step events (initial 0)
      (annMeetsBob ++ [.closed 1 0, .closed 2 0,
          .graceTick (milliseconds DisconnectConfig.kGraceMs) ["ann".toList]] ++
        [.graceTick (milliseconds DisconnectConfig.kGraceMs) []]) =
      [.gameStarted ⟨"ann".toList, "bob".toList, 0⟩, .gameEnded ⟨.black⟩, .gameEnded ⟨.white⟩] := by
    decide
  refine ⟨by decide, by decide, fun h ↦ ?_⟩
  rw [hevents] at h
  exact absurd h.2.1 nofun

end WsServer

end KongFuChess.Network
