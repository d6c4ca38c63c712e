import KongFuChess.Server.Run

/-!
# What every run keeps

While no match is on, nobody holds a seat and no seat is reserved. Between the start of a match and
its end its players stay the same, and seats are taken by these players only. And where each
connection logs in under one username, whatever a connection does is done under this username.
-/

namespace KongFuChess.Session.SessionManager

open Model Matchmaking

/-- Whoever has a seat, or is awaited for it, is a player of the seat. -/
structure PlayersAre (player : Color → StdString → Prop) (session : SessionManager) : Prop where
  seated : ∀ connectionId color, session.colorFor connectionId = some color →
    ∃ username ∈ session.usernameFor connectionId, player color username
  awaited : ∀ username color, session.reservedFor username = some color → player color username

namespace PlayersAre

variable {player : Color → StdString → Prop} {session : SessionManager}

theorem bindLogin (h : session.PlayersAre player) {connectionId : ConnectionId}
    (hfree : session.usernameFor connectionId = none) (username : StdString) :
    (session.bindLogin connectionId username).PlayersAre player := by
  refine ⟨fun other color hcolor ↦ ?_, h.awaited⟩
  obtain ⟨name, hname, hplayer⟩ := h.seated other color hcolor
  have hne : other ≠ connectionId := by
    rintro rfl
    exact absurd (hname.symm.trans hfree) nofun
  exact ⟨name, (usernameFor_bindLogin ..).trans ((if_neg hne).trans hname), hplayer⟩

/-- A player takes the seat. -/
theorem bindSeat (h : session.PlayersAre player) (connectionId : ConnectionId)
    {username : StdString} {color : Color} (hplayer : player color username) :
    ((session.bindColor connectionId color).bindLogin connectionId username).PlayersAre player := by
  refine ⟨fun other held hheld ↦ ?_, h.awaited⟩
  rw [usernameFor_bindLogin]
  rw [colorFor_bindLogin, colorFor_bindColor] at hheld
  split at hheld
  · rename_i heq
    refine ⟨username, if_pos heq, ?_⟩
    rw [← Option.some.inj hheld]
    exact hplayer
  · rename_i hne
    rw [if_neg hne]
    exact h.seated other held hheld

theorem takeSeat (h : session.PlayersAre player) (connectionId : ConnectionId)
    {username : StdString} {color : Color} (hplayer : player color username) :
    (session.takeSeat connectionId username color).PlayersAre player := by
  constructor
  · intro other held hheld
    rw [colorFor_takeSeat] at hheld
    rw [usernameFor_takeSeat]
    split at hheld
    · rename_i heq
      refine ⟨username, if_pos heq, ?_⟩
      rw [← Option.some.inj hheld]
      exact hplayer
    · rename_i hne
      split at hheld
      · exact absurd hheld nofun
      · rename_i hkept
        rw [if_neg hne, if_neg hkept]
        exact h.seated other held hheld
  · intro name held hheld
    rw [reservedFor_takeSeat] at hheld
    split at hheld
    · exact absurd hheld nofun
    · exact h.awaited name held hheld

theorem disconnect (h : session.PlayersAre player) (connectionId : ConnectionId) :
    (session.disconnect connectionId).PlayersAre player := by
  constructor
  · intro other held hheld
    rw [colorFor_disconnect] at hheld
    rw [usernameFor_disconnect]
    split at hheld
    · exact absurd hheld nofun
    · rename_i hne
      rw [if_neg hne]
      exact h.seated other held hheld
  · intro name held hheld
    rw [reservedFor_disconnect] at hheld
    exact h.awaited name held hheld

/-- The seat of a connection that closes is kept for its player. -/
theorem reserve (h : session.PlayersAre player) (connectionId : ConnectionId)
    {username : StdString} {color : Color} (hplayer : player color username) :
    (session.reserveDisconnectedSlot connectionId username color).PlayersAre player := by
  have hreserved : PlayersAre player { session with
      reservedColors := session.reservedColors.insert username color } := by
    refine ⟨h.seated, fun name held hheld ↦ ?_⟩
    have hinsert : (if name = username then some color else session.reservedFor name) =
      some held := (Table.lookup_insert ..).symm.trans hheld
    split at hinsert
    · rename_i heq
      rw [heq, ← Option.some.inj hinsert]
      exact hplayer
    · exact h.awaited name held hinsert
  exact hreserved.disconnect connectionId

/-- Before a match begins nobody has a seat. -/
theorem beginMatch {result : MatchResult}
    (hcolors : ∀ connectionId, session.colorFor connectionId = none)
    (hwhite : player .white result.white.username) (hblack : player .black result.black.username) :
    (session.beginMatch result).PlayersAre player := by
  refine ⟨fun other held hheld ↦ ?_, nofun⟩
  rw [colorFor_beginMatch, hcolors] at hheld
  rw [usernameFor_beginMatch]
  split at hheld
  · rename_i heq
    refine ⟨result.black.username, if_pos heq, ?_⟩
    rw [← Option.some.inj hheld]
    exact hblack
  · rename_i hne
    rw [if_neg hne]
    split at hheld
    · rename_i heq
      refine ⟨result.white.username, if_pos heq, ?_⟩
      rw [← Option.some.inj hheld]
      exact hwhite
    · exact absurd hheld nofun

end PlayersAre

end KongFuChess.Session.SessionManager

namespace KongFuChess.Network.WsServer

open Model Session Matchmaking

/-- Only a match has a fixed roster and seats. -/
structure LobbyClear (server : WsServer) : Prop where
  inGame : server.session.fixedRoster = true → server.session.phase = .inGame
  colors : server.session.phase = .lobby → ∀ connectionId,
    server.session.colorFor connectionId = none
  reserved : server.session.phase = .lobby → ∀ username,
    server.session.reservedFor username = none

theorem lobbyClear_initial (port : ℤ) : (initial port).LobbyClear where
  inGame := nofun
  colors := fun _ _ ↦ rfl
  reserved := fun _ _ ↦ rfl

theorem LobbyClear.step {server : WsServer} (h : server.LobbyClear) (op : Op) :
    (server.step op).LobbyClear := by
  have heffect := server.step_effect op
  generalize server.step op = later at heffect ⊢
  cases heffect with
  | unchanged | opened | loggedIn | queued | leftQueue | queueTicked =>
    exact ⟨h.inGame, h.colors, h.reserved⟩
  | seated hopen hgrace hfixed =>
    have hphase := h.inGame hfixed
    refine ⟨fun _ ↦ hphase, fun hlobby ↦ ?_, h.reserved⟩
    exact absurd (hphase.symm.trans hlobby) nofun
  | @reconnected connectionId username color hopen hgrace hreserved =>
    refine ⟨?_, fun hlobby ↦ ?_, fun hlobby name ↦ ?_⟩
    · rw [SessionManager.fixedRoster_takeSeat, SessionManager.phase_takeSeat]
      exact h.inGame
    · rw [SessionManager.phase_takeSeat] at hlobby
      exact absurd (hreserved.symm.trans (h.reserved hlobby username)) nofun
    · rw [SessionManager.phase_takeSeat] at hlobby
      rw [SessionManager.reservedFor_takeSeat, h.reserved hlobby, ite_self]
  | matched => exact ⟨fun _ ↦ rfl, nofun, nofun⟩
  | seatLost hopen hphase =>
    refine ⟨fun _ ↦ (SessionManager.phase_reserve ..).trans hphase, fun hlobby ↦ ?_,
      fun hlobby ↦ ?_⟩
    · rw [SessionManager.phase_reserve, hphase] at hlobby
      exact absurd hlobby nofun
    · rw [SessionManager.phase_reserve, hphase] at hlobby
      exact absurd hlobby nofun
  | closed =>
    refine ⟨?_, fun hlobby other ↦ ?_, fun hlobby name ↦ ?_⟩
    · rw [SessionManager.fixedRoster_disconnect, SessionManager.phase_disconnect]
      exact h.inGame
    · rw [SessionManager.phase_disconnect] at hlobby
      rw [SessionManager.colorFor_disconnect, h.colors hlobby, ite_self]
    · rw [SessionManager.phase_disconnect] at hlobby
      rw [SessionManager.reservedFor_disconnect, h.reserved hlobby]
  | expired => exact ⟨nofun, fun _ _ ↦ rfl, fun _ _ ↦ rfl⟩

/-- Between the start of a match and its end the players stay the same. -/
theorem roster_step {server : WsServer} {op : Op} (hmatch : server.newMatch op = none)
    (hwinner : server.graceWinner op = none) :
    (server.step op).session.phase = server.session.phase ∧
      (server.step op).session.rosterName = server.session.rosterName := by
  have heffect := server.step_effect op
  generalize server.step op = later at heffect ⊢
  cases heffect with
  | unchanged | opened | loggedIn | seated | queued | leftQueue | queueTicked => exact ⟨rfl, rfl⟩
  | reconnected =>
    exact ⟨SessionManager.phase_takeSeat .., SessionManager.rosterName_takeSeat ..⟩
  | matched hjoins hopponent hmatched => exact absurd (hmatched.symm.trans hmatch) nofun
  | seatLost => exact ⟨SessionManager.phase_reserve .., SessionManager.rosterName_reserve ..⟩
  | closed =>
    exact ⟨SessionManager.phase_disconnect .., SessionManager.rosterName_disconnect ..⟩
  | expired hentry hover hexpired => exact absurd (hexpired.symm.trans hwinner) nofun

/-- As long as no match begins, seats are only taken by those for whom they are. -/
theorem playersAre_of_noMatch {server : WsServer} {op : Op} {player : Color → StdString → Prop}
    (h : server.session.PlayersAre player)
    (hroster : ∀ color, player color (server.session.rosterName color))
    (hmatch : server.newMatch op = none) : (server.step op).session.PlayersAre player := by
  have heffect := server.step_effect op
  generalize server.step op = later at heffect ⊢
  cases heffect with
  | unchanged | opened | queued | leftQueue | queueTicked => exact h
  | @loggedIn connectionId username hopen hgrace hlobby hconnection =>
    exact h.bindLogin hconnection username
  | @seated connectionId username color hopen hgrace hfixed hname =>
    exact h.bindSeat connectionId (hname ▸ hroster color)
  | @reconnected connectionId username color hopen hgrace hreserved =>
    exact h.takeSeat connectionId (h.awaited username color hreserved)
  | matched hjoins hopponent hmatched => exact absurd (hmatched.symm.trans hmatch) nofun
  | @seatLost connectionId now entry hopen hphase hlogin hcolor =>
    obtain ⟨username, hname, hplayer⟩ := h.seated connectionId entry.color hcolor
    obtain rfl := Option.some.inj (hname.symm.trans hlogin)
    exact h.reserve connectionId hplayer
  | @closed connectionId => exact h.disconnect connectionId
  | expired => exact ⟨nofun, nofun⟩

theorem session_of_graceWinner {server : WsServer} {op : Op} {winner : Color}
    (hwinner : server.graceWinner op = some winner) :
    (server.step op).session = server.session.resetToLobby := by
  have heffect := server.step_effect op
  generalize server.step op = later at heffect ⊢
  cases op with
  | graceTick now order =>
    cases heffect with
    | unchanged _ _ hnone => exact absurd (hwinner.symm.trans hnone) nofun
    | expired => rfl
  | opened | login | joinQueue | leaveQueue | closed | queueTick => exact absurd hwinner nofun

/-- Only connections that open are registered. -/
theorem mem_clients_step {server : WsServer} {op : Op} {connectionId : ConnectionId}
    (h : connectionId ∈ (server.step op).clients) :
    connectionId ∈ server.clients ∨ op = .opened connectionId := by
  have heffect := server.step_effect op
  generalize server.step op = later at heffect h
  cases heffect with
  | opened other =>
    rcases List.mem_insert_iff.1 h with rfl | hmem
    · exact .inr rfl
    · exact .inl hmem
  | seatLost | closed => exact .inl (List.mem_of_mem_erase h)
  | unchanged | loggedIn | seated | reconnected | queued | matched | leftQueue | queueTicked
  | expired => exact .inl h

/-- The match that begins. -/
theorem session_of_newMatch {server : WsServer} {op : Op} {result : MatchResult}
    (hmatch : server.newMatch op = some result) :
    (server.step op).session = server.session.beginMatch result ∧
      (server.step op).clients = server.clients := by
  have heffect := server.step_effect op
  generalize server.step op = later at heffect ⊢
  obtain ⟨connectionId, username, record, now, rfl, -⟩ := newMatch_eq_some hmatch
  cases heffect with
  | unchanged _ hnone => exact absurd (hmatch.symm.trans hnone) nofun
  | queued hjoins hopponent hnone => exact absurd (hmatch.symm.trans hnone) nofun
  | matched hjoins hopponent hmatched =>
    obtain rfl := Option.some.inj (hmatched.symm.trans hmatch)
    exact ⟨rfl, rfl⟩

/-- A match that is on after an operation that began none has been on before, with the same
players. -/
theorem roster_of_inGame {server : WsServer} {op : Op} (hmatch : server.newMatch op = none)
    (hlater : (server.step op).session.phase = .inGame) :
    server.session.phase = .inGame ∧
      (server.step op).session.rosterName = server.session.rosterName := by
  cases hwinner : server.graceWinner op with
  | some winner =>
    rw [session_of_graceWinner hwinner] at hlater
    exact absurd hlater nofun
  | none =>
    obtain ⟨hphase, hroster⟩ := roster_step hmatch hwinner
    exact ⟨hphase.symm.trans hlater, hroster⟩

/-- The seats stay with the players of the running match if a match begins only while nobody has a
seat. -/
theorem playersAre_step (player : (Color → StdString) → Color → StdString → Prop)
    (hplayer : ∀ roster color, player roster color (roster color)) {server : WsServer} {op : Op}
    (h : server.session.PlayersAre (player server.session.rosterName))
    (hcolors : ∀ result ∈ server.newMatch op, ∀ connectionId,
      server.session.colorFor connectionId = none) :
    (server.step op).session.PlayersAre (player (server.step op).session.rosterName) := by
  cases hmatch : server.newMatch op with
  | some result =>
    rw [(session_of_newMatch hmatch).1]
    have hroster := hplayer (server.session.beginMatch result).rosterName
    exact SessionManager.PlayersAre.beginMatch (hcolors result hmatch) (hroster .white)
      (hroster .black)
  | none =>
    cases hwinner : server.graceWinner op with
    | some winner =>
      rw [session_of_graceWinner hwinner]
      exact ⟨nofun, nofun⟩
    | none =>
      rw [(roster_step hmatch hwinner).2]
      exact playersAre_of_noMatch h (hplayer server.session.rosterName) hmatch

/-- Every connection is logged in, and waits, under its own username. -/
structure Named (user : ConnectionId → StdString) (server : WsServer) : Prop where
  users : ∀ connectionId username, server.session.usernameFor connectionId = some username →
    username = user connectionId
  waiting : ∀ entry ∈ server.matchmakingQueue.queue, entry.username = user entry.connectionId

theorem named_initial (user : ConnectionId → StdString) (port : ℤ) : (initial port).Named user where
  users := nofun
  waiting := nofun

namespace Named

variable {user : ConnectionId → StdString} {server : WsServer}

/-- A row that is written for one connection. -/
theorem eq_of_written {connectionId other : ConnectionId} {username name : StdString}
    {row : Option StdString} (husername : username = user connectionId)
    (hrow : row = some name → name = user other)
    (h : (if other = connectionId then some username else row) = some name) :
    name = user other := by
  split at h
  · rename_i heq
    rw [heq, ← Option.some.inj h, husername]
  · exact hrow h

/-- A row that is kept. -/
theorem eq_of_kept {p : Prop} [Decidable p] {other : ConnectionId} {name : StdString}
    {row : Option StdString} (hrow : row = some name → name = user other)
    (h : (if p then none else row) = some name) : name = user other := by
  split at h
  · exact absurd h nofun
  · exact hrow h

theorem step (h : server.Named user) {op : Op} (hlogs : op.LogsInAs user) :
    (server.step op).Named user := by
  have heffect := server.step_effect op
  generalize server.step op = later at heffect ⊢
  cases heffect with
  | unchanged | opened => exact ⟨h.users, h.waiting⟩
  | loggedIn | seated =>
    refine ⟨fun other name hother ↦ ?_, h.waiting⟩
    rw [SessionManager.usernameFor_bindLogin] at hother
    exact eq_of_written hlogs (h.users other name) hother
  | reconnected =>
    refine ⟨fun other name hother ↦ ?_, h.waiting⟩
    rw [SessionManager.usernameFor_takeSeat] at hother
    exact eq_of_written hlogs (eq_of_kept (h.users other name)) hother
  | @queued connectionId username record now hjoins =>
    refine ⟨h.users, fun entry hentry ↦ ?_⟩
    rcases List.mem_append.1 hentry with hwaiting | hnew
    · exact h.waiting entry hwaiting
    · rw [List.mem_singleton.1 hnew]
      exact h.users connectionId username hjoins.login
  | @matched connectionId username record now waiting hjoins hopponent =>
    have hblack := h.users connectionId username hjoins.login
    have hwhite := h.waiting waiting (mem_queue_of_opponent hopponent)
    refine ⟨fun other name hother ↦ ?_, fun entry hentry ↦ ?_⟩
    · rw [SessionManager.usernameFor_beginMatch] at hother
      exact eq_of_written hblack (eq_of_written hwhite (h.users other name)) hother
    · exact h.waiting entry (List.mem_of_mem_eraseP hentry)
  | leftQueue connectionId =>
    exact ⟨h.users, fun entry hentry ↦
      h.waiting entry (server.matchmakingQueue.mem_of_mem_remove hentry)⟩
  | seatLost =>
    refine ⟨fun other name hother ↦ ?_, h.waiting⟩
    rw [SessionManager.usernameFor_reserve] at hother
    exact eq_of_kept (h.users other name) hother
  | closed =>
    refine ⟨fun other name hother ↦ ?_, fun entry hentry ↦ ?_⟩
    · rw [SessionManager.usernameFor_disconnect] at hother
      exact eq_of_kept (h.users other name) hother
    · exact h.waiting entry (server.matchmakingQueue.mem_of_mem_remove hentry)
  | queueTicked now =>
    exact ⟨h.users, fun entry hentry ↦ h.waiting entry (List.mem_of_mem_filter hentry)⟩
  | expired => exact ⟨nofun, h.waiting⟩

/-- The two players of a match that begins. -/
theorem of_newMatch (h : server.Named user) {op : Op} {result : MatchResult}
    (hmatch : server.newMatch op = some result) :
    result.white.username = user result.white.connectionId ∧
      result.black.username = user result.black.connectionId := by
  obtain ⟨connectionId, username, record, now, -, hjoins, hblack, hopponent⟩ :=
    newMatch_eq_some hmatch
  refine ⟨h.waiting _ (mem_queue_of_opponent hopponent), ?_⟩
  rw [hblack]
  exact h.users connectionId username hjoins.login

end Named

end KongFuChess.Network.WsServer
