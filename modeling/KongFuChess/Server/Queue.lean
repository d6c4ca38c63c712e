import KongFuChess.Server.Names

/-!
# The players who wait

The queue compares ratings and never looks at identities. The handlers keep the queue in step with
the session as long as a connection that waits does not join again, and nobody waits when a session
is reset.
-/

namespace KongFuChess.Network.WsServer

open Model Session Matchmaking WaitingList

theorem Joins.joinGuard {server : WsServer} {connectionId : ConnectionId} {username : StdString}
    (h : server.Joins connectionId username) : server.joinGuard connectionId = .ok username := by
  rw [WsServer.joinGuard, h.login]
  apply if_neg
  rintro ⟨hphase, hseat | hready⟩
  · rw [h.color hphase] at hseat
    exact absurd hseat nofun
  · exact absurd (hready.symm.trans (h.notReady hphase)) nofun

/-- A join that is not refused comes from a connection that does not wait, and nobody waits when a
player is away for too long. -/
def KeepsQueue (server : WsServer) : Op → Prop
  | .joinQueue connectionId _ _ =>
    connectionId ∈ server.clients → (server.joinGuard connectionId).toBool = true →
      server.matchmakingQueue.contains connectionId = false
  | .graceTick now _ =>
    (∃ grace ∈ server.disconnectManager.graceEntries.entries, grace.2.graceUntil ≤ now) →
      server.matchmakingQueue.queue = []
  | _ => True

instance (server : WsServer) : (op : Op) → Decidable (server.KeepsQueue op)
  | .joinQueue .. | .graceTick .. => inferInstanceAs (Decidable (_ → _))
  | .opened _ | .login .. | .leaveQueue _ | .closed .. | .queueTick _ => .isTrue trivial

/-- No connection waits twice, every entry waits on the connection on which its username is logged
in, and nobody who waits has a seat under the same username. A player who is away is logged in
nowhere. -/
structure QueueOwned (server : WsServer) : Prop where
  entries : server.matchmakingQueue.queue.Pairwise fun first second ↦
    first.connectionId ≠ second.connectionId
  waiting : ∀ entry ∈ server.matchmakingQueue.queue,
    server.session.connectionFor entry.username = some entry.connectionId
  seatless : ∀ entry ∈ server.matchmakingQueue.queue,
    server.session.usernameFor entry.connectionId = some entry.username →
      server.session.colorFor entry.connectionId = none
  logins : ∀ connectionId username, server.session.usernameFor connectionId = some username →
    server.session.connectionFor username = some connectionId
  away : ∀ username, server.disconnectManager.isInGrace username = true →
    server.session.connectionFor username = none
  clear : server.LobbyClear

theorem queueOwned_initial (port : ℤ) : (initial port).QueueOwned where
  entries := .nil
  waiting := nofun
  seatless := nofun
  logins := nofun
  away := fun _ _ ↦ rfl
  clear := lobbyClear_initial port

namespace QueueOwned

variable {server later : WsServer} {username : StdString}

/-- Some of the entries leave. -/
theorem leave (h : server.QueueOwned) {matchmakingQueue : MatchmakingQueue}
    (hclear : { server with matchmakingQueue := matchmakingQueue }.LobbyClear)
    (hsublist : matchmakingQueue.queue.Sublist server.matchmakingQueue.queue) :
    { server with matchmakingQueue := matchmakingQueue }.QueueOwned where
  entries := h.entries.sublist hsublist
  waiting := fun entry hentry ↦ h.waiting entry (hsublist.subset hentry)
  seatless := fun entry hentry ↦ h.seatless entry (hsublist.subset hentry)
  logins := h.logins
  away := h.away
  clear := hclear

/-- A connection takes a username that is logged in nowhere, and perhaps a seat with it. -/
theorem takeName (h : server.QueueOwned) (connectionId : ConnectionId)
    (hfree : server.session.connectionFor username = none)
    (hqueue : later.matchmakingQueue = server.matchmakingQueue)
    (husername : ∀ other, later.session.usernameFor other =
      if other = connectionId then some username else server.session.usernameFor other)
    (hconnection : ∀ name, later.session.connectionFor name =
      if name = username then some connectionId else server.session.connectionFor name)
    (hcolor : ∀ other, other ≠ connectionId →
      later.session.colorFor other = server.session.colorFor other)
    (haway : ∀ name, later.disconnectManager.isInGrace name = true →
      name ≠ username ∧ server.disconnectManager.isInGrace name = true)
    (hclear : later.LobbyClear) : later.QueueOwned := by
  have hne : ∀ {name : StdString} {owner : ConnectionId},
      server.session.connectionFor name = some owner → name ≠ username := by
    rintro name owner howner rfl
    exact absurd (howner.symm.trans hfree) nofun
  constructor
  · rw [hqueue]
    exact h.entries
  · rw [hqueue]
    intro entry hentry
    have hwaiting := h.waiting entry hentry
    rw [hconnection, if_neg (hne hwaiting), hwaiting]
  · rw [hqueue]
    intro entry hentry hlogin
    have hwaiting := h.waiting entry hentry
    rw [husername] at hlogin
    split at hlogin
    · exact absurd (Option.some.inj hlogin).symm (hne hwaiting)
    · rename_i hother
      rw [hcolor _ hother]
      exact h.seatless entry hentry hlogin
  · intro other name hlogin
    rw [husername] at hlogin
    rw [hconnection]
    split at hlogin
    · rename_i heq
      rw [if_pos (Option.some.inj hlogin).symm, heq]
    · have howner := h.logins other name hlogin
      rw [if_neg (hne howner), howner]
  · intro name hgrace
    obtain ⟨hother, hin⟩ := haway name hgrace
    rw [hconnection, if_neg hother, h.away name hin]
  · exact hclear

/-- A connection is closed, and the entries that stay are not for its username. -/
theorem release (h : server.QueueOwned) (connectionId : ConnectionId)
    (hsublist : later.matchmakingQueue.queue.Sublist server.matchmakingQueue.queue)
    (hentries : ∀ entry ∈ later.matchmakingQueue.queue,
      server.session.usernameFor connectionId ≠ some entry.username)
    (husername : ∀ other, later.session.usernameFor other =
      if other = connectionId then none else server.session.usernameFor other)
    (hconnection : ∀ name, later.session.connectionFor name =
      if server.session.usernameFor connectionId = some name then none
      else server.session.connectionFor name)
    (hcolor : ∀ other, later.session.colorFor other =
      if other = connectionId then none else server.session.colorFor other)
    (haway : ∀ name, later.disconnectManager.isInGrace name = true →
      server.session.usernameFor connectionId = some name ∨
        server.disconnectManager.isInGrace name = true)
    (hclear : later.LobbyClear) : later.QueueOwned := by
  constructor
  · exact h.entries.sublist hsublist
  · intro entry hentry
    rw [hconnection, if_neg (hentries entry hentry)]
    exact h.waiting entry (hsublist.subset hentry)
  · intro entry hentry hlogin
    rw [husername] at hlogin
    rw [hcolor]
    split at hlogin
    · exact absurd hlogin nofun
    · rename_i hother
      rw [if_neg hother]
      exact h.seatless entry (hsublist.subset hentry) hlogin
  · intro other name hlogin
    rw [husername] at hlogin
    rw [hconnection]
    split at hlogin
    · exact absurd hlogin nofun
    · rename_i hother
      have howner := h.logins other name hlogin
      rw [if_neg, howner]
      intro hclosed
      exact hother (Option.some.inj (howner.symm.trans (h.logins _ _ hclosed)))
  · intro name hgrace
    rw [hconnection]
    rcases haway name hgrace with hclosed | hin
    · exact if_pos hclosed
    · rw [h.away name hin, ite_self]
  · exact hclear

variable {connectionId : ConnectionId}

/-- An entry for the username of a connection is the entry of that connection. -/
theorem connectionId_eq (h : server.QueueOwned) {entry : QueueEntry}
    (hentry : entry ∈ server.matchmakingQueue.queue)
    (hlogin : server.session.usernameFor connectionId = some entry.username) :
    entry.connectionId = connectionId :=
  Option.some.inj ((h.waiting entry hentry).symm.trans (h.logins _ _ hlogin))

/-- Whoever joins has no seat. -/
theorem colorFor_of_joins (h : server.QueueOwned) (hjoins : server.Joins connectionId username) :
    server.session.colorFor connectionId = none := by
  cases hphase : server.session.phase with
  | inGame => exact hjoins.color hphase
  | lobby => exact h.clear.colors hphase connectionId

theorem not_waiting {record : Option ℤ} {now : TimePoint}
    (hjoins : server.Joins connectionId username)
    (hcondition : server.KeepsQueue (.joinQueue connectionId record now)) (entry : QueueEntry)
    (hentry : entry ∈ server.matchmakingQueue.queue) : entry.connectionId ≠ connectionId := by
  have hcontains := hcondition hjoins.isOpen (by rw [hjoins.joinGuard]; rfl)
  rw [MatchmakingQueue.contains, List.any_eq_false] at hcontains
  exact of_decide_eq_false (Bool.eq_false_iff.2 (hcontains entry hentry))

theorem queued (h : server.QueueOwned) {record : Option ℤ} {now : TimePoint}
    (hjoins : server.Joins connectionId username)
    (hcondition : server.KeepsQueue (.joinQueue connectionId record now)) :
    { server with
      matchmakingQueue :=
        { server.matchmakingQueue with
          queue := server.matchmakingQueue.queue ++
            [newEntry connectionId username record now] } }.QueueOwned := by
  refine ⟨?_, ?_, ?_, h.logins, h.away, ⟨h.clear.inGame, h.clear.colors, h.clear.reserved⟩⟩
  · refine List.pairwise_append.2 ⟨h.entries, List.pairwise_singleton .., ?_⟩
    intro entry hentry new hnew
    rw [List.mem_singleton.1 hnew]
    exact not_waiting hjoins hcondition entry hentry
  · intro entry hentry
    rcases List.mem_append.1 hentry with hwaiting | hnew
    · exact h.waiting entry hwaiting
    · rw [List.mem_singleton.1 hnew]
      exact h.logins connectionId username hjoins.login
  · intro entry hentry hlogin
    rcases List.mem_append.1 hentry with hwaiting | hnew
    · exact h.seatless entry hwaiting hlogin
    · rw [List.mem_singleton.1 hnew]
      exact h.colorFor_of_joins hjoins

/-- The match takes both players with it, and nobody else is affected. -/
theorem matched (h : server.QueueOwned) (result : MatchResult)
    (hjoins : server.Joins result.black.connectionId result.black.username)
    (hwaits : ∀ entry ∈ server.matchmakingQueue.queue,
      entry.connectionId ≠ result.black.connectionId)
    (hopponent : server.opponent result.black = some result.white) :
    { server with
      matchmakingQueue :=
        { server.matchmakingQueue with
          queue := server.matchmakingQueue.queue.eraseP fun entry ↦
            server.matchmakingQueue.isEligible entry result.black }
      session := server.session.beginMatch result }.QueueOwned := by
  have hwhite := h.waiting result.white (mem_queue_of_opponent hopponent)
  have hblack := h.logins result.black.connectionId result.black.username hjoins.login
  have hconnection : ∀ name, (server.session.beginMatch result).connectionFor name =
      server.session.connectionFor name := by
    intro name
    rw [SessionManager.connectionFor_beginMatch]
    split
    · rename_i heq
      rw [heq, hblack]
    · split
      · rename_i heq
        rw [heq, hwhite]
      · rfl
  constructor
  · exact h.entries.sublist List.eraseP_sublist
  · intro entry hentry
    rw [hconnection]
    exact h.waiting entry (List.mem_of_mem_eraseP hentry)
  · intro entry hentry hlogin
    have hmem := List.mem_of_mem_eraseP hentry
    have hfirst := hwaits entry hmem
    have hsecond : entry.connectionId ≠ result.white.connectionId :=
      key_ne_of_mem_eraseP h.entries hopponent hentry
    rw [SessionManager.usernameFor_beginMatch, if_neg hfirst, if_neg hsecond] at hlogin
    rw [SessionManager.colorFor_beginMatch, if_neg hfirst, if_neg hsecond]
    exact h.seatless entry hmem hlogin
  · intro other name hlogin
    rw [hconnection]
    rw [SessionManager.usernameFor_beginMatch] at hlogin
    split at hlogin
    · rename_i heq
      rw [heq, ← Option.some.inj hlogin, hblack]
    · split at hlogin
      · rename_i heq
        rw [heq, ← Option.some.inj hlogin, hwhite]
      · exact h.logins other name hlogin
  · intro name hgrace
    rw [hconnection]
    exact h.away name hgrace
  · exact ⟨fun _ ↦ rfl, nofun, nofun⟩

theorem ne_of_isInGrace {name : StdString} (hin : server.disconnectManager.isInGrace name = true)
    (hgrace : server.disconnectManager.isInGrace username = false) : name ≠ username := by
  rintro rfl
  exact absurd (hin.symm.trans hgrace) nofun

theorem step (h : server.QueueOwned) {op : Op} (hcondition : server.KeepsQueue op) :
    (server.step op).QueueOwned := by
  have hclear := h.clear.step op
  have heffect := server.step_effect op
  generalize server.step op = later at heffect hclear ⊢
  cases heffect with
  | unchanged => exact h
  | opened =>
    exact ⟨h.entries, h.waiting, h.seatless, h.logins, h.away, hclear⟩
  | @loggedIn connectionId username hopen hgrace hlobby hconnection hname =>
    refine h.takeName connectionId hname rfl ?_ ?_ (fun _ _ ↦ rfl) ?_ hclear
    · exact fun other ↦ SessionManager.usernameFor_bindLogin ..
    · exact fun name ↦ SessionManager.connectionFor_bindLogin ..
    · exact fun name hin ↦ ⟨ne_of_isInGrace hin hgrace, hin⟩
  | @seated connectionId username color hopen hgrace hfixed hroster hcolor hname =>
    refine h.takeName connectionId hname rfl ?_ ?_ ?_ ?_ hclear
    · exact fun other ↦ SessionManager.usernameFor_bindLogin ..
    · exact fun name ↦ SessionManager.connectionFor_bindLogin ..
    · exact fun other hother ↦ (SessionManager.colorFor_bindColor ..).trans (if_neg hother)
    · exact fun name hin ↦ ⟨ne_of_isInGrace hin hgrace, hin⟩
  | @reconnected connectionId username color hopen hgrace hreserved =>
    have hname := h.away username hgrace
    have hevicted : ∀ other : ConnectionId, server.session.connectionFor username ≠ some other :=
      fun other heq ↦ absurd (heq.symm.trans hname) nofun
    refine h.takeName connectionId hname rfl ?_ ?_ ?_ ?_ hclear
    · intro other
      rw [SessionManager.usernameFor_takeSeat, if_neg (hevicted other)]
    · exact fun name ↦ SessionManager.connectionFor_takeSeat ..
    · intro other hother
      rw [SessionManager.colorFor_takeSeat, if_neg hother, if_neg (hevicted other)]
    · intro name hin
      simp only [DisconnectManager.isInGrace, DisconnectManager.onReconnect,
        Table.lookup_erase] at hin
      split at hin
      · exact absurd hin nofun
      · exact ⟨‹_›, hin⟩
  | @queued connectionId username record now hjoins => exact h.queued hjoins hcondition
  | @matched connectionId username record now waiting hjoins hopponent hmatch =>
    exact h.matched ⟨waiting, newEntry connectionId username record now⟩ hjoins
      (not_waiting hjoins hcondition) hopponent
  | leftQueue connectionId =>
    apply h.leave hclear
    rw [MatchmakingQueue.remove_snd]
    exact List.eraseP_sublist
  | @seatLost connectionId now entry hopen hphase hlogin hcolor =>
    refine h.release connectionId (.refl _) ?_ ?_ ?_ ?_ ?_ hclear
    · intro waiting hwaiting husername
      have hself := h.connectionId_eq hwaiting husername
      have hnone := h.seatless waiting hwaiting (hself ▸ husername)
      rw [hself, hcolor] at hnone
      exact absurd hnone nofun
    · exact fun other ↦ SessionManager.usernameFor_reserve ..
    · exact fun name ↦ SessionManager.connectionFor_reserve ..
    · exact fun other ↦ SessionManager.colorFor_reserve ..
    · intro name hin
      simp only [DisconnectManager.isInGrace, DisconnectManager.onDisconnect,
        Table.lookup_insert] at hin
      split at hin
      · rename_i heq
        exact .inl (heq ▸ hlogin)
      · exact .inr hin
  | @closed connectionId now hopen hseat =>
    refine h.release connectionId ?_ ?_ ?_ ?_ ?_ (fun _ ↦ .inr) hclear
    · rw [MatchmakingQueue.remove_snd]
      exact List.eraseP_sublist
    · intro waiting hwaiting husername
      have hmem := server.matchmakingQueue.mem_of_mem_remove hwaiting
      exact server.matchmakingQueue.connectionId_ne_of_mem_remove h.entries hwaiting
        (h.connectionId_eq hmem husername)
    · exact fun other ↦ SessionManager.usernameFor_disconnect ..
    · exact fun name ↦ SessionManager.connectionFor_disconnect ..
    · exact fun other ↦ SessionManager.colorFor_disconnect ..
  | queueTicked now => exact h.leave hclear List.filter_sublist
  | @expired now order username entry hentry hover hwinner =>
    have hempty := hcondition ⟨⟨username, entry⟩, AList.mem_lookup_iff.1 hentry, hover⟩
    refine ⟨h.entries, ?_, ?_, nofun, fun _ _ ↦ rfl, hclear⟩
    · rw [hempty]
      exact nofun
    · exact fun _ _ _ ↦ rfl

/-- The two players of a match are two different players. -/
theorem players_ne (h : server.QueueOwned) {op : Op} (hcondition : server.KeepsQueue op)
    {result : MatchResult} (hmatch : server.newMatch op = some result) :
    result.white.connectionId ≠ result.black.connectionId ∧
      result.white.username ≠ result.black.username := by
  obtain ⟨connectionId, username, record, now, rfl, hjoins, hblack, hopponent⟩ :=
    newMatch_eq_some hmatch
  have hmem := mem_queue_of_opponent hopponent
  have hne := not_waiting hjoins hcondition result.white hmem
  rw [hblack]
  refine ⟨hne, fun heq ↦ hne (h.connectionId_eq hmem ?_)⟩
  rw [hjoins.login, heq]
  rfl

end QueueOwned

/-- As long as nobody joins who already waits, and no session is reset while somebody waits, the
players of a match are two different players on two different connections, and no connection waits
twice. -/
theorem run_queue {port : ℤ} {ops : List Op}
    (hcondition : Transition.Along WsServer.step KeepsQueue (initial port) ops) :
    ((run (initial port) ops).matchmakingQueue.queue.Pairwise fun first second ↦
        first.connectionId ≠ second.connectionId) ∧
      Transition.Along WsServer.step (fun server op ↦ ∀ result ∈ server.newMatch op,
        result.white.connectionId ≠ result.black.connectionId ∧
          result.white.username ≠ result.black.username) (initial port) ops := by
  have hinitial := queueOwned_initial port
  have hreached : (run (initial port) ops).QueueOwned :=
    Transition.Along.invariant (fun _ _ h hop ↦ h.step hop) hinitial hcondition
  refine ⟨hreached.entries, ?_⟩
  refine Transition.Along.imp_of_invariant (I := QueueOwned) ?_ hinitial hcondition
  intro server op h hop
  exact ⟨h.step hop, fun result hmatch ↦ h.players_ne hop hmatch⟩

/-- Ann leaves the queue and joins again before Bob does. -/
theorem run_queue_of_ann_again :
    (run (initial 0) [.opened 1, .opened 2, .login 1 "ann".toList, .login 2 "bob".toList,
      .joinQueue 1 none 0, .leaveQueue 1, .joinQueue 1 none 0,
      .joinQueue 2 (some 1500) 0]).matchmakingQueue.queue.Pairwise fun first second ↦
        first.connectionId ≠ second.connectionId :=
  (run_queue (by decide)).1

/-- Ann joins twice and is matched with herself. With another rating she waits twice. -/
theorem ann_meets_ann :
    let server := run (initial 0) [.opened 1, .login 1 "ann".toList, .joinQueue 1 (some 1200) 0]
    (∃ result ∈ server.newMatch (.joinQueue 1 (some 1200) 0),
        result.white.connectionId = 1 ∧ result.black.connectionId = 1 ∧
          result.white.username = "ann".toList ∧ result.black.username = "ann".toList) ∧
      (server.step (.joinQueue 1 (some 1500) 0)).matchmakingQueue.queue.map (·.connectionId) =
        [1, 1] := by
  refine ⟨⟨_, rfl, ?_⟩, ?_⟩ <;> decide

/-! ## Players who have gone -/

/-- The entry belongs to an open connection, logged in under its username, that has no seat. -/
def CanPlay (server : WsServer) (entry : QueueEntry) : Prop :=
  entry.connectionId ∈ server.clients ∧
    server.session.usernameFor entry.connectionId = some entry.username ∧
      server.session.colorFor entry.connectionId = none

/-- Every connection uses its own username, and whoever waits is logged in on an open connection. -/
structure QueueLive (user : ConnectionId → StdString) (server : WsServer) : Prop where
  owned : server.QueueOwned
  named : server.Named user
  live : ∀ entry ∈ server.matchmakingQueue.queue, entry.connectionId ∈ server.clients ∧
    server.session.usernameFor entry.connectionId = some entry.username

theorem queueLive_initial (user : ConnectionId → StdString) (port : ℤ) :
    (initial port).QueueLive user where
  owned := queueOwned_initial port
  named := named_initial user port
  live := nofun

namespace QueueLive

variable {user : ConnectionId → StdString} {server later : WsServer} {username : StdString}

/-- The connection that takes a username that is logged in nowhere does not wait. -/
theorem live_of_takeName (h : server.QueueLive user) (connectionId : ConnectionId)
    (hfree : server.session.connectionFor username = none) (huser : username = user connectionId)
    (husername : ∀ other, later.session.usernameFor other =
      if other = connectionId then some username else server.session.usernameFor other)
    (entry : QueueEntry) (hentry : entry ∈ server.matchmakingQueue.queue) :
    entry.connectionId ∈ server.clients ∧
      later.session.usernameFor entry.connectionId = some entry.username := by
  obtain ⟨hopen, hlogin⟩ := h.live entry hentry
  have hne : entry.connectionId ≠ connectionId := by
    intro heq
    have hname : entry.username = username := by
      rw [h.named.waiting entry hentry, heq, huser]
    rw [← hname, h.owned.waiting entry hentry] at hfree
    exact absurd hfree nofun
  rw [husername, if_neg hne]
  exact ⟨hopen, hlogin⟩

/-- A connection that does not wait is closed. -/
theorem live_of_release (h : server.QueueLive user) {connectionId : ConnectionId}
    (husername : ∀ other, later.session.usernameFor other =
      if other = connectionId then none else server.session.usernameFor other)
    {entry : QueueEntry} (hentry : entry ∈ server.matchmakingQueue.queue)
    (hne : entry.connectionId ≠ connectionId) :
    entry.connectionId ∈ server.clients.erase connectionId ∧
      later.session.usernameFor entry.connectionId = some entry.username := by
  obtain ⟨hopen, hlogin⟩ := h.live entry hentry
  rw [husername, if_neg hne]
  exact ⟨(List.mem_erase_of_ne hne).2 hopen, hlogin⟩

theorem step (h : server.QueueLive user) {op : Op} (hlogs : op.LogsInAs user)
    (hcondition : server.KeepsQueue op) : (server.step op).QueueLive user := by
  have howned := h.owned.step hcondition
  have hnamed := h.named.step hlogs
  have heffect := server.step_effect op
  generalize server.step op = later at heffect howned hnamed ⊢
  refine ⟨howned, hnamed, ?_⟩
  cases heffect with
  | unchanged => exact h.live
  | opened connectionId =>
    intro entry hentry
    obtain ⟨hopen, hlogin⟩ := h.live entry hentry
    exact ⟨List.mem_insert_of_mem hopen, hlogin⟩
  | @loggedIn connectionId username hopen hgrace hlobby hconnection hname =>
    apply h.live_of_takeName connectionId hname hlogs
    exact fun other ↦ SessionManager.usernameFor_bindLogin ..
  | @seated connectionId username color hopen hgrace hfixed hroster hcolor hname =>
    apply h.live_of_takeName connectionId hname hlogs
    exact fun other ↦ SessionManager.usernameFor_bindLogin ..
  | @reconnected connectionId username color hopen hgrace hreserved =>
    have hname := h.owned.away username hgrace
    apply h.live_of_takeName connectionId hname hlogs
    intro other
    rw [SessionManager.usernameFor_takeSeat, hname, if_neg (nofun : none ≠ some other)]
  | @queued connectionId username record now hjoins =>
    intro entry hentry
    rcases List.mem_append.1 hentry with hwaiting | hnew
    · exact h.live entry hwaiting
    · rw [List.mem_singleton.1 hnew]
      exact ⟨hjoins.isOpen, hjoins.login⟩
  | @matched connectionId username record now waiting hjoins hopponent hmatch =>
    intro entry hentry
    obtain ⟨hopen, hlogin⟩ := h.live entry (List.mem_of_mem_eraseP hentry)
    refine ⟨hopen, ?_⟩
    rw [SessionManager.usernameFor_beginMatch]
    split
    · rename_i heq
      rw [← hlogin, heq]
      exact hjoins.login.symm
    · split
      · rename_i heq
        rw [← hlogin, heq]
        exact (h.live waiting (mem_queue_of_opponent hopponent)).2.symm
      · exact hlogin
  | leftQueue connectionId =>
    intro entry hentry
    exact h.live entry (server.matchmakingQueue.mem_of_mem_remove hentry)
  | @seatLost connectionId now entry hopen hphase hlogin hcolor =>
    intro waiting hwaiting
    apply h.live_of_release (fun other ↦ SessionManager.usernameFor_reserve ..) hwaiting
    rintro rfl
    have hseatless := h.owned.seatless waiting hwaiting (h.live waiting hwaiting).2
    exact absurd (hcolor.symm.trans hseatless) nofun
  | @closed connectionId now hopen hseat =>
    intro waiting hwaiting
    apply h.live_of_release (fun other ↦ SessionManager.usernameFor_disconnect ..)
      (server.matchmakingQueue.mem_of_mem_remove hwaiting)
    exact server.matchmakingQueue.connectionId_ne_of_mem_remove h.owned.entries hwaiting
  | queueTicked now => exact fun entry hentry ↦ h.live entry (List.mem_of_mem_filter hentry)
  | @expired now order username entry hentry hover hwinner =>
    intro waiting hwaiting
    rw [hcondition ⟨⟨username, entry⟩, AList.mem_lookup_iff.1 hentry, hover⟩] at hwaiting
    exact absurd hwaiting List.not_mem_nil

theorem canPlay (h : server.QueueLive user) {entry : QueueEntry}
    (hentry : entry ∈ server.matchmakingQueue.queue) : server.CanPlay entry := by
  obtain ⟨hopen, hlogin⟩ := h.live entry hentry
  exact ⟨hopen, hlogin, h.owned.seatless entry hentry hlogin⟩

/-- Matches are formed of players who can play. -/
theorem canPlay_of_newMatch (h : server.QueueLive user) {op : Op} {result : MatchResult}
    (hmatch : server.newMatch op = some result) :
    server.CanPlay result.white ∧ server.CanPlay result.black := by
  obtain ⟨connectionId, username, record, now, rfl, hjoins, hblack, hopponent⟩ :=
    newMatch_eq_some hmatch
  refine ⟨h.canPlay (mem_queue_of_opponent hopponent), ?_⟩
  rw [hblack]
  exact ⟨hjoins.isOpen, hjoins.login, h.owned.colorFor_of_joins hjoins⟩

end QueueLive

/-- Under the same condition, if each connection uses one username, every entry of the queue belongs
to an open connection that is logged in under the username of the entry and holds no colour, and
matches are formed of such connections only. -/
theorem run_queue_live {user : ConnectionId → StdString} {port : ℤ} {ops : List Op}
    (hcondition : Transition.Along WsServer.step
      (fun server op ↦ op.LogsInAs user ∧ server.KeepsQueue op) (initial port) ops) :
    let reached := run (initial port) ops
    (∀ entry ∈ reached.matchmakingQueue.queue, reached.CanPlay entry) ∧
      Transition.Along WsServer.step (fun server op ↦ ∀ result ∈ server.newMatch op,
        server.CanPlay result.white ∧ server.CanPlay result.black) (initial port) ops := by
  intro reached
  have hinitial := queueLive_initial user port
  have hreached : reached.QueueLive user :=
    Transition.Along.invariant (fun _ _ h hop ↦ h.step hop.1 hop.2) hinitial hcondition
  refine ⟨fun entry ↦ hreached.canPlay, ?_⟩
  refine Transition.Along.imp_of_invariant (I := QueueLive user) ?_ hinitial hcondition
  intro server op h hop
  exact ⟨h.step hop.1 hop.2, fun result hmatch ↦ h.canPlay_of_newMatch hmatch⟩

/-- Carl, whose rating suits nobody, waits for an opponent while Ann and Bob are matched. -/
def carlInQueue : List Op :=
  [.opened 3, .login 3 "carl".toList, .joinQueue 3 (some 1500) 0] ++ annMeetsBob

theorem run_queue_live_of_carl :
    (run (initial 0) carlInQueue).CanPlay (newEntry 3 "carl".toList (some 1500) 0) := by
  have hcondition : Transition.Along WsServer.step
      (fun server op ↦ op.LogsInAs userOfFour ∧ server.KeepsQueue op) (initial 0) carlInQueue := by
    decide
  have hwaits : newEntry 3 "carl".toList (some 1500) 0 ∈
      (run (initial 0) carlInQueue).matchmakingQueue.queue := by
    decide
  exact (run_queue_live hcondition).1 _ hwaits

/-- When Ann's time is over the session is reset, and Carl still waits although nobody is logged in
any more. -/
theorem carl_waits_logged_out :
    let reached := run (initial 0)
      (carlInQueue ++ [.closed 1 0, .graceTick (milliseconds DisconnectConfig.kGraceMs) []])
    reached.matchmakingQueue.queue.map (fun entry ↦ (entry.connectionId, entry.username)) =
        [(3, "carl".toList)] ∧
      reached.session.usernameFor 3 = none := by
  decide

end KongFuChess.Network.WsServer
