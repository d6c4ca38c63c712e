import KongFuChess.Network.Escapes
import KongFuChess.Server.Names

/-!
# The news of a match

A connection is told of a match when it begins, and when its player comes back. The two players are
told that they are matched before anybody is told that the game starts, and that it starts is told
to everybody.
-/

namespace KongFuChess.Network

open Model Events Session Matchmaking

/-- The message tells of no match. -/
def ServerMessage.Quiet (message : ServerMessage) : Prop :=
  message.messageType ≠ .matchFound ∧ message.messageType ≠ .gameStarted

instance (message : ServerMessage) : Decidable message.Quiet :=
  inferInstanceAs (Decidable (_ ∧ _))

namespace WsServer

/-- Nobody is told of a match. -/
def Quiet (outputs : List Output) : Prop :=
  ∀ connectionId message, .sent connectionId message ∈ outputs → message.Quiet

theorem quiet_nil : Quiet [] := fun _ _ hmem ↦ absurd hmem List.not_mem_nil

theorem Quiet.append {first second : List Output} (hfirst : Quiet first) (hsecond : Quiet second) :
    Quiet (first ++ second) := by
  intro connectionId message hmem
  rcases List.mem_append.1 hmem with hleft | hright
  · exact hfirst connectionId message hleft
  · exact hsecond connectionId message hright

theorem quiet_sent (connectionId : ConnectionId) {message : ServerMessage}
    (h : message.Quiet) :
    Quiet [.sent connectionId message] := by
  intro other otherMessage hmem
  obtain ⟨-, rfl⟩ := Output.sent.inj (List.mem_singleton.1 hmem)
  exact h

theorem quiet_broadcast (server : WsServer) {message : ServerMessage}
    (h : message.Quiet) :
    Quiet (server.broadcast message) := by
  intro connectionId other hmem
  obtain ⟨client, -, heq⟩ := List.mem_map.1 hmem
  obtain ⟨-, rfl⟩ := Output.sent.inj heq
  exact h

theorem mem_sendToConnection {server : WsServer} {connectionId other : ConnectionId}
    {message otherMessage : ServerMessage}
    (h : .sent other otherMessage ∈ server.sendToConnection connectionId message) :
    other ∈ server.clients ∧ other = connectionId ∧ otherMessage = message := by
  unfold sendToConnection at h
  split at h
  · obtain ⟨rfl, rfl⟩ := Output.sent.inj (List.mem_singleton.1 h)
    exact ⟨‹_›, rfl, rfl⟩
  · exact absurd h List.not_mem_nil

/-- Who is matched with whom is told to the two players. -/
inductive Finds (server : WsServer) (result : MatchResult) (connectionId : ConnectionId) :
    ServerMessage → Prop
  | white (hopen : connectionId ∈ server.clients) (h : connectionId = result.white.connectionId) :
    Finds server result connectionId
      (.matchFound "white".toList result.black.username server.port)
  | black (hopen : connectionId ∈ server.clients) (h : connectionId = result.black.connectionId) :
    Finds server result connectionId
      (.matchFound "black".toList result.white.username server.port)

/-- What connections are told of a match by one operation. -/
inductive News (server : WsServer) (op : Op) (outputs : List Output) : Prop
  | none (h : Quiet outputs)
  | resumed {connectionId : ConnectionId} {username : StdString} {color : Color} {port : ℤ}
    (front : List Output) (hop : op = .login connectionId username)
    (hopen : connectionId ∈ server.clients)
    (hreserved : server.session.reservedFor username = some color) (hfront : Quiet front)
    (hback : outputs = front ++ [.sent connectionId (.gameEvent (.gameStarted
      ⟨server.session.rosterName .white, server.session.rosterName .black, port⟩))])
  | begun {result : MatchResult} {port : ℤ} (front : List Output)
    (hmatch : server.newMatch op = some result)
    (hfront : ∀ connectionId message, .sent connectionId message ∈ front →
      message = .queueJoined ∨ Finds server result connectionId message)
    (hback : outputs = front ++ server.publish (.gameStarted
      ⟨result.white.username, result.black.username, port⟩))

section Handlers

variable (server : WsServer) (connectionId : ConnectionId)

theorem news_login (username : StdString) (hopen : connectionId ∈ server.clients) :
    News server (.login connectionId username) (server.handleLogin connectionId username).1 := by
  unfold handleLogin
  split
  · rw [SessionManager.reconnect_eq]
    cases hreserved : server.session.reservedFor username with
    | none => exact .none (quiet_sent _ (of_decide_eq_true rfl))
    | some color =>
      have hcolor : (server.session.takeSeat connectionId username color).colorFor connectionId =
          some color := by
        rw [SessionManager.colorFor_takeSeat, if_pos rfl]
      have hsnapshot : (server.session.takeSeat connectionId username color).rosterSnapshot =
          ⟨server.session.rosterName .white, server.session.rosterName .black,
            (server.session.takeSeat connectionId username color).port⟩ := by
        rw [← SessionManager.rosterName_takeSeat server.session connectionId username color]
        rfl
      simp only [hcolor, hsnapshot]
      have hback : ∀ message, server.broadcast (.playerReconnected username) ++
          [.sent connectionId (.loginOk (Protocol.colorLabel color)), message] =
            (server.broadcast (.playerReconnected username) ++
              [.sent connectionId (.loginOk (Protocol.colorLabel color))]) ++ [message] :=
        fun message ↦ List.append_cons ..
      have hbroadcast : Quiet (server.broadcast (.playerReconnected username)) :=
        quiet_broadcast server (of_decide_eq_true rfl)
      have hlogin : Quiet [.sent connectionId (.loginOk (Protocol.colorLabel color))] :=
        quiet_sent connectionId (of_decide_eq_true rfl)
      exact .resumed _ rfl hopen hreserved (hbroadcast.append hlogin) (hback _)
  · split
    · exact .none (quiet_sent _ (of_decide_eq_true rfl))
    · exact .none (quiet_sent _ (of_decide_eq_true rfl))

theorem news_joinQueue (record : Option ℤ) (now : TimePoint)
    (hopen : connectionId ∈ server.clients) :
    News server (.joinQueue connectionId record now)
      (server.handleJoinQueue connectionId record now).1 := by
  unfold handleJoinQueue
  cases hguard : server.joinGuard connectionId with
  | error message => exact .none (quiet_sent _ (of_decide_eq_true rfl))
  | ok username =>
    have hmatch : server.newMatch (.joinQueue connectionId record now) =
        (server.matchmakingQueue.enqueue (newEntry connectionId username record now)).1 := by
      rw [newMatch, if_pos hopen, hguard]
    cases hresult :
      (server.matchmakingQueue.enqueue (newEntry connectionId username record now)).1 with
    | none =>
      simp only [hresult]
      exact .none (quiet_sent _ (of_decide_eq_true rfl))
    | some result =>
      simp only [hresult, notifyMatch]
      refine .begun (.sent connectionId .queueJoined ::
        (server.sendToConnection result.white.connectionId
            (.matchFound "white".toList result.black.username server.port) ++
          server.sendToConnection result.black.connectionId
            (.matchFound "black".toList result.white.username server.port)))
        (hmatch.trans hresult) ?_ rfl
      intro other message hmem
      rcases List.mem_cons.1 hmem with heq | hmem
      · exact .inl (Output.sent.inj heq).2
      · rcases List.mem_append.1 hmem with hwhite | hblack
        · obtain ⟨hclient, rfl, rfl⟩ := mem_sendToConnection hwhite
          exact .inr (.white hclient rfl)
        · obtain ⟨hclient, rfl, rfl⟩ := mem_sendToConnection hblack
          exact .inr (.black hclient rfl)

end Handlers

/-- Every operation tells one of these news. -/
theorem news (server : WsServer) (op : Op) : News server op (server.outputs op) := by
  unfold outputs
  cases op with
  | opened connectionId => exact .none quiet_nil
  | login connectionId username =>
    rw [perform]
    split
    · exact news_login server connectionId username ‹_›
    · exact .none quiet_nil
  | joinQueue connectionId record now =>
    rw [perform]
    split
    · exact news_joinQueue server connectionId record now ‹_›
    · exact .none quiet_nil
  | leaveQueue connectionId =>
    rw [perform]
    split
    · unfold handleLeaveQueue
      split
      · exact .none (quiet_sent _ (of_decide_eq_true rfl))
      · exact .none (quiet_sent _ (of_decide_eq_true rfl))
    · exact .none quiet_nil
  | closed connectionId now =>
    rw [perform]
    split
    · unfold handleDisconnect
      split
      · exact .none (quiet_broadcast server (of_decide_eq_true rfl))
      · exact .none quiet_nil
    · exact .none quiet_nil
  | queueTick now =>
    refine .none fun connectionId message hmem ↦ ?_
    obtain ⟨entry, -, hsent⟩ := List.mem_flatMap.1 hmem
    obtain ⟨-, -, rfl⟩ := mem_sendToConnection hsent
    exact of_decide_eq_true rfl
  | graceTick now order =>
    rw [perform, tickGrace]
    split
    · exact .none quiet_nil
    · refine .none fun connectionId message hmem ↦ ?_
      rcases List.mem_cons.1 hmem with heq | hmem
      · exact Output.noConfusion heq
      · obtain ⟨client, -, heq⟩ := List.mem_map.1 hmem
        obtain ⟨-, rfl⟩ := Output.sent.inj heq
        exact of_decide_eq_true rfl

/-- Who is matched is told to the two players only, and that the game starts is told to
everybody. -/
structure TellsMatch (server : WsServer) (op : Op) : Prop where
  found : ∀ connectionId color opponent port,
    .sent connectionId (.matchFound color opponent port) ∈ server.outputs op →
      ∃ result ∈ server.newMatch op,
        connectionId = result.white.connectionId ∨ connectionId = result.black.connectionId
  started : ∀ result ∈ server.newMatch op, ∃ port, ∀ connectionId ∈ server.clients,
    .sent connectionId (.gameEvent (.gameStarted
      ⟨result.white.username, result.black.username, port⟩)) ∈ server.outputs op

theorem found_only (server : WsServer) (op : Op) {connectionId : ConnectionId}
    {color opponent : StdString} {port : ℤ}
    (h : .sent connectionId (.matchFound color opponent port) ∈ server.outputs op) :
    ∃ result ∈ server.newMatch op,
      connectionId = result.white.connectionId ∨ connectionId = result.black.connectionId := by
  cases server.news op with
  | none hquiet => exact absurd rfl (hquiet connectionId _ h).1
  | resumed front hop hopen hreserved hfront hback =>
    rw [hback] at h
    rcases List.mem_append.1 h with hquiet | hstarted
    · exact absurd rfl (hfront connectionId _ hquiet).1
    · exact absurd (Output.sent.inj (List.mem_singleton.1 hstarted)).2 nofun
  | @begun result _ front hmatch hfront hback =>
    rw [hback] at h
    rcases List.mem_append.1 h with hfound | hstarted
    · rcases hfront connectionId _ hfound with heq | hfinds
      · exact absurd heq nofun
      · refine ⟨result, hmatch, ?_⟩
        cases hfinds with
        | white hopen heq => exact .inl heq
        | black hopen heq => exact .inr heq
    · rcases List.mem_cons.1 hstarted with heq | hbroadcast
      · exact absurd heq nofun
      · obtain ⟨client, -, heq⟩ := List.mem_map.1 hbroadcast
        exact absurd (Output.sent.inj heq).2 nofun

theorem publish_of_newMatch {server : WsServer} {op : Op} {result : MatchResult}
    (hmatch : server.newMatch op = some result) :
    ∃ front port, server.outputs op = front ++ server.publish (.gameStarted
      ⟨result.white.username, result.black.username, port⟩) := by
  cases op with
  | joinQueue connectionId record now =>
    rw [newMatch] at hmatch
    split at hmatch
    · rename_i hopen
      split at hmatch
      · rename_i username hguard
        rw [outputs, perform, if_pos hopen, handleJoinQueue]
        simp only [hguard, hmatch, notifyMatch]
        exact ⟨.sent connectionId .queueJoined :: (_ ++ _), _, rfl⟩
      · exact absurd hmatch.symm (Option.some_ne_none _)
    · exact absurd hmatch.symm (Option.some_ne_none _)
  | opened | login | leaveQueue | closed | queueTick | graceTick =>
    exact absurd hmatch.symm (Option.some_ne_none _)

theorem tellsMatch (server : WsServer) (op : Op) : TellsMatch server op where
  found := fun _ _ _ _ ↦ server.found_only op
  started := by
    intro result hmatch
    obtain ⟨front, port, hback⟩ := publish_of_newMatch hmatch
    refine ⟨port, fun connectionId hopen ↦ ?_⟩
    rw [hback]
    refine List.mem_append_right _ (List.mem_cons_of_mem _ ?_)
    exact List.mem_map.2 ⟨connectionId, hopen, rfl⟩

/-! ## Who comes back -/

/-- During a match everybody who has a seat, or is awaited, is one of its players. -/
structure RosterHeld (server : WsServer) : Prop where
  clear : server.LobbyClear
  seated : server.session.phase = .inGame → ∀ connectionId color,
    server.session.colorFor connectionId = some color →
      ∃ seat, server.session.usernameFor connectionId = some (server.session.rosterName seat)
  awaited : ∀ username color, server.session.reservedFor username = some color →
    ∃ seat, server.session.rosterName seat = username

theorem rosterHeld_initial (port : ℤ) : (initial port).RosterHeld where
  clear := lobbyClear_initial port
  seated := nofun
  awaited := nofun

theorem RosterHeld.playersAre {server : WsServer} (h : server.RosterHeld) :
    server.session.PlayersAre fun _ username ↦
      ∃ seat, server.session.rosterName seat = username := by
  refine ⟨fun connectionId color hcolor ↦ ?_, h.awaited⟩
  cases hphase : server.session.phase with
  | inGame =>
    obtain ⟨seat, hseat⟩ := h.seated hphase connectionId color hcolor
    exact ⟨_, hseat, seat, rfl⟩
  | lobby =>
    rw [h.clear.colors hphase] at hcolor
    exact absurd hcolor nofun

theorem RosterHeld.of_playersAre {server : WsServer} (hclear : server.LobbyClear)
    (hplayers : server.session.PlayersAre fun _ username ↦
      ∃ seat, server.session.rosterName seat = username) : server.RosterHeld := by
  refine ⟨hclear, fun _ connectionId color hcolor ↦ ?_, hplayers.awaited⟩
  obtain ⟨username, hname, seat, rfl⟩ := hplayers.seated connectionId color hcolor
  exact ⟨seat, hname⟩

theorem RosterHeld.step {server : WsServer} (h : server.RosterHeld) {op : Op}
    (hcondition : ∀ result ∈ server.newMatch op, server.session.phase = .lobby) :
    (server.step op).RosterHeld := by
  apply RosterHeld.of_playersAre (h.clear.step op)
  apply playersAre_step (fun roster _ username ↦ ∃ seat, roster seat = username)
    (fun _ color ↦ ⟨color, rfl⟩) h.playersAre
  intro result hmatch
  exact h.clear.colors (hcondition result hmatch)

end WsServer

end KongFuChess.Network
