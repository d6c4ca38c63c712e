import KongFuChess.Server.Names

/-!
# The login tables

The session manager keeps two tables, from connections to usernames and back. Every handler writes
a login to both of them, but only a login to the lobby and a seat of the fixed roster are written
where the connection and the username are known to be free. A reconnect takes the connection as it
is, and a match takes its first player as the queue remembers them.
-/

namespace KongFuChess.Session.SessionManager

open Model Matchmaking

/-- The two login tables are inverse to each other. -/
def LoginsInverse (session : SessionManager) : Prop :=
  Inverse session.connectionUsernames session.usernameConnections

/-- The connection and the username are each free or logged in with the other. -/
def CanLogIn (session : SessionManager) (connectionId : ConnectionId) (username : StdString) :
    Prop :=
  Linked session.connectionUsernames session.usernameConnections connectionId username

instance (session : SessionManager) (connectionId : ConnectionId) (username : StdString) :
    Decidable (session.CanLogIn connectionId username) :=
  inferInstanceAs (Decidable (Linked ..))

/-- The player's connection holds a colour. -/
def Seated (session : SessionManager) (username : StdString) : Prop :=
  ∃ connectionId color, session.connectionFor username = some connectionId ∧
    session.colorFor connectionId = some color

/-- A username that is logged in nowhere can be logged in on a connection without another login. -/
theorem canLogIn_of_free {session : SessionManager} {connectionId : ConnectionId}
    {username : StdString} (hname : session.connectionFor username = none)
    (hconnection : ∀ bound ∈ session.usernameFor connectionId, bound = username) :
    session.CanLogIn connectionId username := by
  constructor
  · exact hconnection
  · intro owner hmem
    exact absurd (hmem.symm.trans hname) nofun

/-- Both players of a match that begins are seated. -/
theorem seated_beginMatch (session : SessionManager) (result : MatchResult) (color : Color) :
    (session.beginMatch result).Seated ((session.beginMatch result).rosterName color) := by
  simp only [Seated, rosterName_beginMatch, connectionFor_beginMatch, colorFor_beginMatch]
  cases color with
  | black => exact ⟨result.black.connectionId, .black, if_pos rfl, if_pos rfl⟩
  | white =>
    dsimp only
    split
    · exact ⟨_, .black, rfl, if_pos rfl⟩
    · refine ⟨result.white.connectionId, ?_⟩
      rw [if_pos rfl, if_pos rfl]
      split
      · exact ⟨.black, rfl, rfl⟩
      · exact ⟨.white, rfl, rfl⟩

namespace LoginsInverse

variable {session : SessionManager} {connectionId : ConnectionId} {username : StdString}

theorem iff (h : session.LoginsInverse) :
    session.usernameFor connectionId = some username ↔
      session.connectionFor username = some connectionId :=
  h connectionId username

theorem canLogIn (h : session.LoginsInverse)
    (hlogin : session.usernameFor connectionId = some username) :
    session.CanLogIn connectionId username :=
  h.linked hlogin

theorem bindLogin (h : session.LoginsInverse) (hfree : session.CanLogIn connectionId username) :
    (session.bindLogin connectionId username).LoginsInverse :=
  h.insert hfree

theorem disconnect (h : session.LoginsInverse) (connectionId : ConnectionId) :
    (session.disconnect connectionId).LoginsInverse := by
  unfold SessionManager.disconnect
  split
  · exact h.erase ‹_›
  · exact h

theorem reserve (h : session.LoginsInverse) (connectionId : ConnectionId) (username : StdString)
    (color : Color) :
    (session.reserveDisconnectedSlot connectionId username color).LoginsInverse := by
  have hreserved : LoginsInverse { session with
    reservedColors := session.reservedColors.insert username color } := h
  exact hreserved.disconnect connectionId

/-- A player who is seated stays seated when another connection is closed. -/
theorem seated_disconnect (h : session.LoginsInverse) (hseated : session.Seated username)
    (hother : session.usernameFor connectionId ≠ some username) :
    (session.disconnect connectionId).Seated username := by
  obtain ⟨other, color, hconnection, hcolor⟩ := hseated
  have hne : other ≠ connectionId := by
    rintro rfl
    exact hother (h.iff.2 hconnection)
  refine ⟨other, color, ?_, ?_⟩
  · rw [connectionFor_disconnect, if_neg hother, hconnection]
  · rw [colorFor_disconnect, if_neg hne, hcolor]

theorem seated_reserve (h : session.LoginsInverse) (hseated : session.Seated username)
    (hother : session.usernameFor connectionId ≠ some username) (name : StdString)
    (color : Color) :
    (session.reserveDisconnectedSlot connectionId name color).Seated username := by
  have hreserved : LoginsInverse { session with
    reservedColors := session.reservedColors.insert name color } := h
  exact hreserved.seated_disconnect hseated hother

/-- The player who joins last is logged in, so only the player who waited has to be free. -/
theorem beginMatch (h : session.LoginsInverse) {result : MatchResult}
    (hwhite : session.CanLogIn result.white.connectionId result.white.username)
    (hblack : session.usernameFor result.black.connectionId = some result.black.username) :
    (session.beginMatch result).LoginsInverse := by
  have hbound := h.bindLogin hwhite
  refine hbound.bindLogin (hbound.canLogIn ?_)
  rw [usernameFor_bindLogin]
  split
  · rename_i heq
    rw [hwhite.1 result.black.username (heq ▸ hblack)]
  · exact hblack

theorem takeSeat (h : session.LoginsInverse) (hname : session.connectionFor username = none)
    (hconnection : ∀ bound ∈ session.usernameFor connectionId, bound = username) (color : Color) :
    (session.takeSeat connectionId username color).LoginsInverse := by
  have hevict : session.evict connectionId username = session := by
    rw [connectionFor] at hname
    rw [evict, hname]
  have hbound := h.bindLogin (canLogIn_of_free hname hconnection)
  rw [← hevict] at hbound
  exact hbound

end LoginsInverse

end KongFuChess.Session.SessionManager

namespace KongFuChess.Network.WsServer

open Model Session Matchmaking

/-! ## The invariant -/

/-- The tables are inverse. The other fields exclude what could break this silently: during a match
both players are on the server or awaited, so nobody is seated by logging in, and nobody who is
awaited has a connection that a reconnect would evict. -/
structure LoginsAgree (server : WsServer) : Prop where
  inverse : server.session.LoginsInverse
  clear : server.LobbyClear
  awaited : ∀ username color, server.session.reservedFor username = some color →
    server.disconnectManager.isInGrace username = true ∧
      server.session.connectionFor username = none
  players : server.session.phase = .inGame → ∀ color,
    server.session.Seated (server.session.rosterName color) ∨
      ∃ reserved, server.session.reservedFor (server.session.rosterName color) = some reserved

/-- A reconnect comes from a connection that is not logged in under another username, and the player
who has waited for a match is still logged in on the same connection, or else the username and the
connection are both free. -/
def KeepsLogins (server : WsServer) (op : Op) : Prop :=
  (∀ result ∈ server.newMatch op,
      server.session.CanLogIn result.white.connectionId result.white.username) ∧
    match op with
    | .login connectionId username =>
      (server.session.reservedFor username).isSome = true →
        ∀ bound ∈ server.session.usernameFor connectionId, bound = username
    | _ => True

instance (server : WsServer) (op : Op) : Decidable (server.KeepsLogins op) :=
  @instDecidableAnd _ _ inferInstance (match op with
    | .login .. => inferInstanceAs (Decidable (_ → _))
    | .opened _ | .joinQueue .. | .leaveQueue _ | .closed .. | .queueTick _ | .graceTick .. =>
      .isTrue trivial)

theorem loginsAgree_initial (port : ℤ) : (initial port).LoginsAgree where
  inverse := inverse_empty
  clear := lobbyClear_initial port
  awaited := nofun
  players := nofun

namespace LoginsAgree

variable {server : WsServer}

/-- Nobody is given a seat of the running match by logging in. -/
theorem not_free (h : server.LoginsAgree) {color : Color}
    (hfixed : server.session.fixedRoster = true)
    (hgrace : server.disconnectManager.isInGrace (server.session.rosterName color) = false)
    (hname : server.session.connectionFor (server.session.rosterName color) = none) : False := by
  rcases h.players (h.clear.inGame hfixed) color with
    ⟨connectionId, seat, hconnection, -⟩ | ⟨seat, hseat⟩
  · exact absurd (hconnection.symm.trans hname) nofun
  · exact absurd ((h.awaited _ _ hseat).1.symm.trans hgrace) nofun

theorem inverse_step (h : server.LoginsAgree) {op : Op} (hcondition : server.KeepsLogins op) :
    (server.step op).session.LoginsInverse := by
  have heffect := server.step_effect op
  generalize server.step op = later at heffect ⊢
  cases heffect with
  | unchanged | opened | queued | leftQueue | queueTicked => exact h.inverse
  | @loggedIn connectionId username hopen hgrace hlobby hconnection hname =>
    apply h.inverse.bindLogin
    apply SessionManager.canLogIn_of_free hname
    intro bound hbound
    exact absurd (hbound.symm.trans hconnection) nofun
  | seated hopen hgrace hfixed hroster hcolor hname =>
    subst hroster
    exact (h.not_free hfixed hgrace hname).elim
  | @reconnected connectionId username color hopen hgrace hreserved =>
    have hname := (h.awaited username color hreserved).2
    have hsame := hcondition.2 (Option.isSome_iff_exists.2 ⟨color, hreserved⟩)
    exact h.inverse.takeSeat hname hsame color
  | matched hjoins hopponent hmatch =>
    exact h.inverse.beginMatch (hcondition.1 _ hmatch) hjoins.login
  | @seatLost connectionId now entry =>
    exact h.inverse.reserve connectionId entry.username entry.color
  | @closed connectionId => exact h.inverse.disconnect connectionId
  | expired => exact inverse_empty

theorem awaited_step (h : server.LoginsAgree) {op : Op} {name : StdString} {held : Color}
    (hheld : (server.step op).session.reservedFor name = some held) :
    (server.step op).disconnectManager.isInGrace name = true ∧
      (server.step op).session.connectionFor name = none := by
  have heffect := server.step_effect op
  generalize server.step op = later at heffect hheld ⊢
  cases heffect with
  | unchanged | opened | queued | leftQueue | queueTicked => exact h.awaited name held hheld
  | @loggedIn connectionId username hopen hgrace hlobby hconnection hname =>
    have hawaited := h.awaited name held hheld
    refine ⟨hawaited.1, ?_⟩
    have hne : name ≠ username := by
      rintro rfl
      exact absurd (hawaited.1.symm.trans hgrace) nofun
    rw [SessionManager.connectionFor_bindLogin, if_neg hne, hawaited.2]
  | seated hopen hgrace hfixed hroster hcolor hname =>
    subst hroster
    exact (h.not_free hfixed hgrace hname).elim
  | reconnected =>
    rw [SessionManager.reservedFor_takeSeat] at hheld
    split at hheld
    · exact absurd hheld nofun
    · rename_i hne
      obtain ⟨hin, hfree⟩ := h.awaited name held hheld
      simp only [DisconnectManager.isInGrace, DisconnectManager.onReconnect, Table.lookup_erase,
        if_neg hne, SessionManager.connectionFor_takeSeat]
      exact ⟨hin, hfree⟩
  | matched | expired => exact absurd hheld nofun
  | @seatLost connectionId now entry hopen hphase hlogin =>
    rw [SessionManager.reservedFor_reserve] at hheld
    simp only [DisconnectManager.isInGrace, DisconnectManager.onDisconnect, Table.lookup_insert,
      SessionManager.connectionFor_reserve]
    by_cases hname : name = entry.username
    · rw [if_pos hname, hname, if_pos hlogin]
      exact ⟨rfl, rfl⟩
    · rw [if_neg hname] at hheld ⊢
      obtain ⟨hin, hfree⟩ := h.awaited name held hheld
      exact ⟨hin, by rw [hfree, ite_self]⟩
  | closed =>
    rw [SessionManager.reservedFor_disconnect] at hheld
    obtain ⟨hin, hfree⟩ := h.awaited name held hheld
    exact ⟨hin, by rw [SessionManager.connectionFor_disconnect, hfree, ite_self]⟩

theorem players_step (h : server.LoginsAgree) {op : Op}
    (hphase : (server.step op).session.phase = .inGame) (seat : Color) :
    (server.step op).session.Seated ((server.step op).session.rosterName seat) ∨
      ∃ reserved, (server.step op).session.reservedFor
        ((server.step op).session.rosterName seat) = some reserved := by
  have heffect := server.step_effect op
  generalize server.step op = later at heffect hphase ⊢
  cases heffect with
  | unchanged | opened | queued | leftQueue | queueTicked => exact h.players hphase seat
  | @loggedIn connectionId username hopen hgrace hlobby hconnection hname =>
    apply (h.players hphase seat).imp_left
    rintro ⟨other, held, hother, hheld⟩
    have hne : server.session.rosterName seat ≠ username := by
      intro heq
      rw [heq, hname] at hother
      exact absurd hother nofun
    refine ⟨other, held, ?_, hheld⟩
    exact (SessionManager.connectionFor_bindLogin ..).trans ((if_neg hne).trans hother)
  | seated hopen hgrace hfixed hroster hcolor hname =>
    subst hroster
    exact (h.not_free hfixed hgrace hname).elim
  | @reconnected connectionId username color hopen hgrace hreserved =>
    have hname := (h.awaited username color hreserved).2
    rw [SessionManager.phase_takeSeat] at hphase
    simp only [SessionManager.rosterName_takeSeat, SessionManager.reservedFor_takeSeat,
      SessionManager.Seated, SessionManager.connectionFor_takeSeat]
    split
    · exact .inl ⟨connectionId, color, rfl, by rw [SessionManager.colorFor_takeSeat, if_pos rfl]⟩
    · rename_i hne
      apply (h.players hphase seat).imp_left
      rintro ⟨other, held, hother, hheld⟩
      refine ⟨other, ?_⟩
      rw [SessionManager.colorFor_takeSeat, hname]
      split
      · exact ⟨color, hother, rfl⟩
      · exact ⟨held, hother, (if_neg nofun).trans hheld⟩
  | matched => exact .inl (SessionManager.seated_beginMatch ..)
  | @seatLost connectionId now entry hopen hgame hlogin =>
    simp only [SessionManager.rosterName_reserve, SessionManager.reservedFor_reserve]
    split
    · exact .inr ⟨entry.color, rfl⟩
    · rename_i hne
      apply (h.players hgame seat).imp_left
      intro hseated
      refine h.inverse.seated_reserve hseated ?_ ..
      rw [hlogin]
      exact fun heq ↦ hne (Option.some.inj heq).symm
  | closed hopen hseat =>
    rw [SessionManager.phase_disconnect] at hphase
    simp only [SessionManager.rosterName_disconnect, SessionManager.reservedFor_disconnect]
    apply (h.players hphase seat).imp_left
    intro hseated
    apply h.inverse.seated_disconnect hseated
    intro hlogin
    obtain ⟨other, held, hother, hheld⟩ := hseated
    obtain rfl := Option.some.inj ((h.inverse.iff.1 hlogin).symm.trans hother)
    have hnone := hseat hphase (Option.isSome_iff_exists.2 ⟨_, hlogin⟩)
    exact absurd (hheld.symm.trans hnone) nofun
  | expired => exact absurd hphase nofun

theorem step (h : server.LoginsAgree) {op : Op} (hcondition : server.KeepsLogins op) :
    (server.step op).LoginsAgree where
  inverse := h.inverse_step hcondition
  clear := h.clear.step op
  awaited := fun _ _ ↦ h.awaited_step
  players := h.players_step

/-- A connection that closes releases its username, which is awaited if it had a seat. -/
theorem closed (h : server.LoginsAgree) {connectionId : ConnectionId} {username : StdString}
    (hopen : connectionId ∈ server.clients)
    (hlogin : server.session.usernameFor connectionId = some username) (now : TimePoint) :
    let later := server.step (.closed connectionId now)
    (later.session.connectionFor username = none ∧
        ∀ other, later.session.usernameFor other ≠ some username) ∧
      ∀ color, server.session.phase = .inGame →
        server.session.colorFor connectionId = some color →
          later.disconnectManager.isInGrace username = true ∧
            later.session.reservedFor username = some color := by
  intro later
  have hlater : later = (server.handleDisconnect connectionId now).2 := by
    change (server.perform _).2 = _
    rw [perform, if_pos hopen]
  have hagree : later.LoginsAgree :=
    h.step ⟨fun result hmatch ↦ absurd hmatch (Option.not_mem_none result), trivial⟩
  have hfree : later.session.connectionFor username = none := by
    rw [hlater, handleDisconnect]
    split
    · exact (SessionManager.connectionFor_reserve ..).trans (if_pos hlogin)
    · exact (SessionManager.connectionFor_disconnect ..).trans (if_pos hlogin)
  refine ⟨⟨hfree, ?_⟩, ?_⟩
  · intro other hother
    exact Option.some_ne_none _ ((hagree.inverse.iff.1 hother).symm.trans hfree)
  · intro color hphase hcolor
    have hseat : server.lostSeat connectionId = some (username, color) := by
      rw [lostSeat, if_pos hphase, hlogin, hcolor]
    rw [hlater, handleDisconnect, hseat]
    constructor
    · exact Option.isSome_iff_exists.2 ⟨_, AList.lookup_insert _⟩
    · exact (SessionManager.reservedFor_reserve ..).trans (if_pos rfl)

end LoginsAgree

/-- As long as only connections that are not logged in otherwise come back, and only players who are
still logged in are matched, the login tables are inverse, nobody is logged in twice, and a closed
connection releases its username. -/
theorem run_logins {port : ℤ} {ops : List Op}
    (hcondition : Transition.Along WsServer.step KeepsLogins (initial port) ops) :
    let reached := run (initial port) ops
    (∀ connectionId username, reached.session.usernameFor connectionId = some username ↔
        reached.session.connectionFor username = some connectionId) ∧
      (∀ first second username, reached.session.usernameFor first = some username →
        reached.session.usernameFor second = some username → first = second) ∧
      ∀ connectionId username now, connectionId ∈ reached.clients →
        reached.session.usernameFor connectionId = some username →
          let later := reached.step (.closed connectionId now)
          (later.session.connectionFor username = none ∧
              ∀ other, later.session.usernameFor other ≠ some username) ∧
            ∀ color, reached.session.phase = .inGame →
              reached.session.colorFor connectionId = some color →
                later.disconnectManager.isInGrace username = true ∧
                  later.session.reservedFor username = some color := by
  intro reached
  have hreached : reached.LoginsAgree :=
    Transition.Along.invariant (fun _ _ h hop ↦ h.step hop) (loginsAgree_initial port) hcondition
  refine ⟨fun _ _ ↦ hreached.inverse.iff, ?_, ?_⟩
  · intro first second username hfirst hsecond
    exact hreached.inverse.key_unique hfirst hsecond
  · intro connectionId username now hopen hlogin
    exact hreached.closed hopen hlogin now

/-- Ann comes back on a connection that is not logged in. -/
theorem run_logins_of_ann_back :
    let reached := run (initial 0)
      (annMeetsBob ++ [.closed 1 0, .opened 3, .login 3 "carl".toList, .login 3 "ann".toList])
    reached.session.usernameFor 3 = some "ann".toList ↔
      reached.session.connectionFor "ann".toList = some 3 :=
  (run_logins (by decide)).1 3 "ann".toList

/-- Carl's connection takes Ann's seat, and Carl is still logged in on it for one of the tables. -/
theorem logins_disagree :
    let reached := run (initial 0)
      ([.opened 3, .login 3 "carl".toList] ++ annMeetsBob ++
        [.closed 1 0, .login 3 "ann".toList])
    reached.session.connectionFor "carl".toList = some 3 ∧
      reached.session.usernameFor 3 ≠ some "carl".toList := by
  decide

end KongFuChess.Network.WsServer
