import KongFuChess.Library.Transition
import KongFuChess.Server.Handlers

/-!
# Runs of the server

An operation is what the server reacts to: a connection opens, sends a message or closes, or one of
the two timers ticks. The transport delivers nothing from a connection that is not open, so the
messages and the closing of other connections do nothing.

`Effect` says once what one operation can do to the state, with all the guards that have been
passed, and every invariant is derived from it.
-/

namespace KongFuChess.Network

open Model Events Session Matchmaking WaitingList

namespace WsServer

inductive Op
  | opened (connectionId : ConnectionId)
  | login (connectionId : ConnectionId) (username : StdString)
  | joinQueue (connectionId : ConnectionId) (record : Option ℤ) (now : TimePoint)
  | leaveQueue (connectionId : ConnectionId)
  | closed (connectionId : ConnectionId) (now : TimePoint)
  | queueTick (now : TimePoint)
  | graceTick (now : TimePoint) (order : List StdString)
deriving DecidableEq, Repr

/-- A connection logs in under one username only. -/
def Op.LogsInAs (user : ConnectionId → StdString) : Op → Prop
  | .login connectionId username => username = user connectionId
  | _ => True

instance (user : ConnectionId → StdString) : (op : Op) → Decidable (op.LogsInAs user)
  | .login .. => inferInstanceAs (Decidable (_ = _))
  | .opened _ | .joinQueue .. | .leaveQueue _ | .closed .. | .queueTick _ | .graceTick .. =>
    .isTrue trivial

def perform (server : WsServer) : Op → List Output × WsServer
  | .opened connectionId => ([], server.registerClient connectionId)
  | .login connectionId username =>
    if connectionId ∈ server.clients then server.handleLogin connectionId username else ([], server)
  | .joinQueue connectionId record now =>
    if connectionId ∈ server.clients then server.handleJoinQueue connectionId record now
    else ([], server)
  | .leaveQueue connectionId =>
    if connectionId ∈ server.clients then server.handleLeaveQueue connectionId else ([], server)
  | .closed connectionId now =>
    if connectionId ∈ server.clients then server.handleDisconnect connectionId now
    else ([], server)
  | .queueTick now => server.tickQueueTimeouts now
  | .graceTick now order => server.tickGrace now order

/-- What an operation sends and publishes. -/
def outputs (server : WsServer) (op : Op) : List Output := (server.perform op).1

def step (server : WsServer) (op : Op) : WsServer := (server.perform op).2

/-- A server that has just been started. -/
def initial (port : ℤ) : WsServer := { session := { port := port }, port := port }

abbrev run (server : WsServer) (ops : List Op) : WsServer := Transition.run step server ops

/-! ## Joining the queue -/

/-- The guards of a join that is not refused. -/
structure Joins (server : WsServer) (connectionId : ConnectionId) (username : StdString) :
    Prop where
  isOpen : connectionId ∈ server.clients
  login : server.session.usernameFor connectionId = some username
  color : server.session.phase = .inGame → server.session.colorFor connectionId = none
  notReady : server.session.phase = .inGame → server.session.isReady = false

theorem joins_of_joinGuard {server : WsServer} {connectionId : ConnectionId} {username : StdString}
    (hopen : connectionId ∈ server.clients)
    (h : server.joinGuard connectionId = .ok username) : server.Joins connectionId username := by
  unfold joinGuard at h
  split at h
  · exact absurd h nofun
  · rename_i name hlogin
    split at h
    · exact absurd h nofun
    · rename_i hguard
      obtain rfl : name = username := Except.ok.inj h
      rw [not_and] at hguard
      constructor
      · exact hopen
      · exact hlogin
      · exact fun hphase ↦ Option.not_isSome_iff_eq_none.1 (not_or.1 (hguard hphase)).1
      · exact fun hphase ↦ Bool.eq_false_iff.2 (not_or.1 (hguard hphase)).2

/-- The waiting player that a new entry is matched with. -/
def opponent (server : WsServer) (entry : QueueEntry) : Option QueueEntry :=
  partner server.matchmakingQueue.isEligible server.matchmakingQueue.queue entry

/-- The match that an operation begins. -/
def newMatch (server : WsServer) : Op → Option MatchResult
  | .joinQueue connectionId record now =>
    if connectionId ∈ server.clients then
      match server.joinGuard connectionId with
      | .ok username =>
        (server.matchmakingQueue.enqueue (newEntry connectionId username record now)).1
      | .error _ => none
    else none
  | _ => none

/-- The winner that a tick of the grace timer declares. -/
def graceWinner (server : WsServer) : Op → Option Color
  | .graceTick now order => (server.disconnectManager.tick now order).1
  | _ => none

/-! ## What one operation can do -/

inductive Effect (server : WsServer) : Op → WsServer → Prop
  | unchanged (op : Op) (hmatch : server.newMatch op = none)
    (hwinner : server.graceWinner op = none) : Effect server op server
  | opened (connectionId : ConnectionId) :
    Effect server (.opened connectionId) (server.registerClient connectionId)
  | loggedIn {connectionId : ConnectionId} {username : StdString}
    (hopen : connectionId ∈ server.clients)
    (hgrace : server.disconnectManager.isInGrace username = false)
    (hlobby : server.session.fixedRoster = false)
    (hconnection : server.session.usernameFor connectionId = none)
    (hname : server.session.connectionFor username = none) :
    Effect server (.login connectionId username)
      { server with session := server.session.bindLogin connectionId username }
  | seated {connectionId : ConnectionId} {username : StdString} {color : Color}
    (hopen : connectionId ∈ server.clients)
    (hgrace : server.disconnectManager.isInGrace username = false)
    (hfixed : server.session.fixedRoster = true)
    (hroster : server.session.rosterName color = username)
    (hcolor : server.session.colorFor connectionId = none)
    (hname : server.session.connectionFor username = none) :
    Effect server (.login connectionId username)
      { server with
        session := (server.session.bindColor connectionId color).bindLogin connectionId username }
  | reconnected {connectionId : ConnectionId} {username : StdString} {color : Color}
    (hopen : connectionId ∈ server.clients)
    (hgrace : server.disconnectManager.isInGrace username = true)
    (hreserved : server.session.reservedFor username = some color) :
    Effect server (.login connectionId username)
      { server with
        session := server.session.takeSeat connectionId username color
        disconnectManager := server.disconnectManager.onReconnect username }
  | queued {connectionId : ConnectionId} {username : StdString} {record : Option ℤ}
    {now : TimePoint} (hjoins : server.Joins connectionId username)
    (hopponent : server.opponent (newEntry connectionId username record now) = none)
    (hmatch : server.newMatch (.joinQueue connectionId record now) = none) :
    Effect server (.joinQueue connectionId record now)
      { server with
        matchmakingQueue :=
          { server.matchmakingQueue with
            queue := server.matchmakingQueue.queue ++
              [newEntry connectionId username record now] } }
  | matched {connectionId : ConnectionId} {username : StdString} {record : Option ℤ}
    {now : TimePoint} {waiting : QueueEntry} (hjoins : server.Joins connectionId username)
    (hopponent : server.opponent (newEntry connectionId username record now) = some waiting)
    (hmatch : server.newMatch (.joinQueue connectionId record now) =
      some ⟨waiting, newEntry connectionId username record now⟩) :
    Effect server (.joinQueue connectionId record now)
      { server with
        matchmakingQueue :=
          { server.matchmakingQueue with
            queue := server.matchmakingQueue.queue.eraseP fun entry ↦
              server.matchmakingQueue.isEligible entry
                (newEntry connectionId username record now) }
        session :=
          server.session.beginMatch ⟨waiting, newEntry connectionId username record now⟩ }
  | leftQueue (connectionId : ConnectionId) :
    Effect server (.leaveQueue connectionId) (server.removeFromQueue connectionId)
  | seatLost {connectionId : ConnectionId} {now : TimePoint} {entry : DisconnectGraceEntry}
    (hopen : connectionId ∈ server.clients) (hphase : server.session.phase = .inGame)
    (hlogin : server.session.usernameFor connectionId = some entry.username)
    (hcolor : server.session.colorFor connectionId = some entry.color) :
    Effect server (.closed connectionId now)
      { server with
        disconnectManager := server.disconnectManager.onDisconnect entry
        session :=
          server.session.reserveDisconnectedSlot connectionId entry.username entry.color
        clients := server.clients.erase connectionId }
  | closed {connectionId : ConnectionId} {now : TimePoint} (hopen : connectionId ∈ server.clients)
    (hseat : server.session.phase = .inGame →
      (server.session.usernameFor connectionId).isSome = true →
        server.session.colorFor connectionId = none) :
    Effect server (.closed connectionId now)
      { server with
        matchmakingQueue := (server.matchmakingQueue.remove connectionId).2
        session := server.session.disconnect connectionId
        clients := server.clients.erase connectionId }
  | queueTicked (now : TimePoint) :
    Effect server (.queueTick now)
      { server with matchmakingQueue := (server.matchmakingQueue.tick now).2 }
  | expired {now : TimePoint} {order : List StdString} {username : StdString}
    {entry : DisconnectGraceEntry}
    (hentry : server.disconnectManager.graceEntryFor username = some entry)
    (hover : entry.graceUntil ≤ now)
    (hwinner : server.graceWinner (.graceTick now order) = some entry.color.opposite) :
    Effect server (.graceTick now order)
      { server with
        disconnectManager := server.disconnectManager.onReconnect username
        session := server.session.resetToLobby }

section Handlers

variable (server : WsServer) (connectionId : ConnectionId)

/-- Whatever a login answers, the session is the one that the authentication leaves. -/
theorem handleLogin_snd (username : StdString)
    (hgrace : server.disconnectManager.isInGrace username = false) :
    (server.handleLogin connectionId username).2 =
      { server with session := (server.session.authenticate connectionId username).2 } := by
  rw [handleLogin, hgrace, if_neg Bool.false_ne_true]
  obtain ⟨result, session⟩ := server.session.authenticate connectionId username
  cases result <;> rfl

theorem effect_login (username : StdString) (hopen : connectionId ∈ server.clients) :
    Effect server (.login connectionId username) (server.handleLogin connectionId username).2 := by
  cases hgrace : server.disconnectManager.isInGrace username with
  | true =>
    rw [handleLogin, if_pos hgrace, SessionManager.reconnect_eq]
    cases hreserved : server.session.reservedFor username with
    | none => exact .unchanged _ rfl rfl
    | some color => exact .reconnected hopen hgrace hreserved
  | false =>
    rw [handleLogin_snd _ _ _ hgrace]
    rcases server.session.authenticate_cases connectionId username with
      heq | ⟨hlobby, hconnection, hname, heq⟩ | ⟨color, hfixed, hroster, hcolor, hname, heq⟩
    · rw [heq]
      exact .unchanged _ rfl rfl
    · rw [heq]
      exact .loggedIn hopen hgrace hlobby hconnection hname
    · rw [heq]
      exact .seated hopen hgrace hfixed hroster hcolor hname

theorem effect_joinQueue (record : Option ℤ) (now : TimePoint)
    (hopen : connectionId ∈ server.clients) :
    Effect server (.joinQueue connectionId record now)
      (server.handleJoinQueue connectionId record now).2 := by
  have hmatch : server.newMatch (.joinQueue connectionId record now) =
      match server.joinGuard connectionId with
      | .ok username =>
        (server.matchmakingQueue.enqueue (newEntry connectionId username record now)).1
      | .error _ => none := if_pos hopen
  unfold handleJoinQueue
  cases hguard : server.joinGuard connectionId with
  | error message =>
    rw [hguard] at hmatch
    exact .unchanged _ hmatch rfl
  | ok username =>
    have hjoins := joins_of_joinGuard hopen hguard
    rw [hguard] at hmatch
    simp only [MatchmakingQueue.enqueue_eq] at hmatch ⊢
    cases hopponent : server.opponent (newEntry connectionId username record now) with
    | none =>
      have hqueued := Effect.queued hjoins hopponent
      rw [opponent] at hopponent
      rw [hopponent] at hmatch
      simpa [hopponent, enter] using hqueued hmatch
    | some waiting =>
      have hmatched := Effect.matched hjoins hopponent
      rw [opponent] at hopponent
      rw [hopponent] at hmatch
      simpa [hopponent, enter, notifyMatch] using hmatched hmatch

theorem effect_leaveQueue :
    Effect server (.leaveQueue connectionId) (server.handleLeaveQueue connectionId).2 := by
  unfold handleLeaveQueue
  split
  · exact .unchanged _ rfl rfl
  · exact .leftQueue connectionId

theorem effect_closed (now : TimePoint) (hopen : connectionId ∈ server.clients) :
    Effect server (.closed connectionId now) (server.handleDisconnect connectionId now).2 := by
  unfold handleDisconnect
  cases hseat : server.lostSeat connectionId with
  | some seat =>
    unfold lostSeat at hseat
    split at hseat
    · rename_i hphase
      split at hseat
      · rename_i username color hlogin hcolor
        obtain rfl := Option.some.inj hseat
        let entry : DisconnectGraceEntry :=
          { username := username
            color := color
            connectionId := connectionId
            disconnectedAt := now
            graceUntil := now + milliseconds DisconnectConfig.kGraceMs }
        exact @Effect.seatLost server connectionId now entry hopen hphase hlogin hcolor
      · exact absurd hseat nofun
    · exact absurd hseat nofun
  | none =>
    refine .closed hopen fun hphase hlogin ↦ ?_
    obtain ⟨username, hname⟩ := Option.isSome_iff_exists.1 hlogin
    rw [lostSeat, if_pos hphase, hname] at hseat
    cases hcolor : server.session.colorFor connectionId with
    | none => rfl
    | some color =>
      rw [hcolor] at hseat
      exact absurd hseat nofun

theorem effect_graceTick (now : TimePoint) (order : List StdString) :
    Effect server (.graceTick now order) (server.tickGrace now order).2 := by
  unfold tickGrace
  rcases server.disconnectManager.tick_cases now order with
    ⟨heq, -⟩ | ⟨username, entry, hentry, hover, heq⟩
  · rw [heq]
    exact .unchanged _ rfl (congrArg Prod.fst heq)
  · rw [heq]
    exact .expired hentry hover (congrArg Prod.fst heq)

end Handlers

/-- Every operation has one of these effects. -/
theorem step_effect (server : WsServer) (op : Op) : Effect server op (server.step op) := by
  cases op with
  | opened connectionId => exact .opened connectionId
  | login connectionId username =>
    rw [step, perform]
    split
    · exact effect_login server connectionId username ‹_›
    · exact .unchanged _ rfl rfl
  | joinQueue connectionId record now =>
    rw [step, perform]
    split
    · exact effect_joinQueue server connectionId record now ‹_›
    · rename_i hclosed
      exact .unchanged _ (if_neg hclosed) rfl
  | leaveQueue connectionId =>
    rw [step, perform]
    split
    · exact effect_leaveQueue server connectionId
    · exact .unchanged _ rfl rfl
  | closed connectionId now =>
    rw [step, perform]
    split
    · exact effect_closed server connectionId now ‹_›
    · exact .unchanged _ rfl rfl
  | queueTick now => exact .queueTicked now
  | graceTick now order => exact effect_graceTick server now order

/-- A match is begun by a join that passes the guards, with the opponent who has waited longest. -/
theorem newMatch_eq_some {server : WsServer} {op : Op} {result : MatchResult}
    (h : server.newMatch op = some result) :
    ∃ connectionId username record now,
      op = .joinQueue connectionId record now ∧ server.Joins connectionId username ∧
        result.black = newEntry connectionId username record now ∧
        server.opponent result.black = some result.white := by
  cases op with
  | joinQueue connectionId record now =>
    rw [newMatch] at h
    split at h
    · rename_i hopen
      split at h
      · rename_i username hguard
        rw [MatchmakingQueue.enqueue_eq, Option.map_eq_some_iff] at h
        obtain ⟨waiting, hopponent, rfl⟩ := h
        exact ⟨connectionId, username, record, now, rfl, joins_of_joinGuard hopen hguard, rfl,
          hopponent⟩
      · exact absurd h nofun
    · exact absurd h nofun
  | opened | login | leaveQueue | closed | queueTick | graceTick => exact absurd h nofun

theorem mem_queue_of_opponent {server : WsServer} {entry waiting : QueueEntry}
    (h : server.opponent entry = some waiting) : waiting ∈ server.matchmakingQueue.queue :=
  List.mem_of_find?_eq_some h

/-- Four players and their connections. -/
def userOfFour : ConnectionId → StdString
  | 1 => "ann".toList
  | 2 => "bob".toList
  | 3 => "carl".toList
  | 4 => "dora".toList
  | _ => []

/-- Ann and Bob log in on connections 1 and 2, join the queue and are matched. -/
def annMeetsBob : List Op :=
  [.opened 1, .opened 2, .login 1 "ann".toList, .login 2 "bob".toList, .joinQueue 1 none 0,
    .joinQueue 2 none 0]

end WsServer

end KongFuChess.Network
