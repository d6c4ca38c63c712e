import KongFuChess.Server.Logins

/-!
# The running match

A join is refused to the players of the running match and, while both of them hold their seats, to
everybody else. So nothing overwrites the match as long as nobody finds an opponent while a player
is away, and both seats are taken when the match begins.
-/

namespace KongFuChess.Network.WsServer

open Model Session Matchmaking

/-- During a match, nobody is matched while a player is away, and a player is matched with another
connection than the one that has waited, whose username is not logged in elsewhere. -/
def KeepsMatch (server : WsServer) (op : Op) : Prop :=
  (server.session.phase = .inGame → 0 < server.disconnectManager.graceEntries.size →
      server.newMatch op = none) ∧
    ∀ result ∈ server.newMatch op, result.white.connectionId ≠ result.black.connectionId ∧
      ∀ owner ∈ server.session.connectionFor result.white.username,
        owner = result.white.connectionId

instance (server : WsServer) (op : Op) : Decidable (server.KeepsMatch op) :=
  inferInstanceAs (Decidable (_ ∧ _))

/-- Every connection uses its own username, and each seat is held by its player or reserved for
them. -/
structure SeatsOwned (user : ConnectionId → StdString) (server : WsServer) : Prop where
  logins : server.LoginsAgree
  named : server.Named user
  roster : server.session.phase = .inGame →
    server.session.rosterName .white ≠ server.session.rosterName .black
  owned : server.session.phase = .inGame → ∀ connectionId color,
    server.session.colorFor connectionId = some color →
      server.session.usernameFor connectionId = some (server.session.rosterName color)
  reserved : ∀ username color, server.session.reservedFor username = some color →
    server.session.rosterName color = username

theorem seatsOwned_initial (user : ConnectionId → StdString) (port : ℤ) :
    (initial port).SeatsOwned user where
  logins := loginsAgree_initial port
  named := named_initial user port
  roster := nofun
  owned := nofun
  reserved := nofun

namespace SeatsOwned

variable {user : ConnectionId → StdString} {server : WsServer}

theorem rosterName_injective (h : server.SeatsOwned user) (hphase : server.session.phase = .inGame)
    {first second : Color}
    (heq : server.session.rosterName first = server.session.rosterName second) :
    first = second := by
  have hne := h.roster hphase
  cases first <;> cases second
  · rfl
  · exact absurd heq hne
  · exact absurd heq.symm hne
  · rfl

/-- A colour is held by one connection. -/
theorem owner_unique (h : server.SeatsOwned user) (hphase : server.session.phase = .inGame)
    {first second : ConnectionId} {color : Color}
    (hfirst : server.session.colorFor first = some color)
    (hsecond : server.session.colorFor second = some color) : first = second :=
  h.logins.inverse.key_unique (h.owned hphase first color hfirst)
    (h.owned hphase second color hsecond)

/-- While nobody is away, each player holds the own seat. -/
theorem exists_owner (h : server.SeatsOwned user) (hphase : server.session.phase = .inGame)
    (hpresent : server.disconnectManager.graceEntries.size = 0) (color : Color) :
    ∃ connectionId, server.session.colorFor connectionId = some color := by
  rcases h.logins.players hphase color with ⟨connectionId, held, hname, hheld⟩ | ⟨seat, hseat⟩
  · have hlogin := h.logins.inverse.iff.2 hname
    have howned := h.owned hphase connectionId held hheld
    have heq := Option.some.inj (howned.symm.trans hlogin)
    exact ⟨connectionId, h.rosterName_injective hphase heq ▸ hheld⟩
  · have haway := (h.logins.awaited _ _ hseat).1
    rw [DisconnectManager.isInGrace, Table.lookup_of_size_eq_zero hpresent] at haway
    exact absurd haway Bool.false_ne_true

theorem isReady (h : server.SeatsOwned user) (hphase : server.session.phase = .inGame)
    (hpresent : server.disconnectManager.graceEntries.size = 0) :
    server.session.isReady = true := by
  obtain ⟨white, hwhite⟩ := h.exists_owner hphase hpresent .white
  obtain ⟨black, hblack⟩ := h.exists_owner hphase hpresent .black
  have hne : white ≠ black := by
    rintro rfl
    exact absurd (hwhite.symm.trans hblack) nofun
  have hsize : server.session.connectionColors.size = 2 := by
    apply Table.size_eq_two hne
    intro connectionId
    constructor
    · intro hsome
      obtain ⟨color, hcolor⟩ := Option.isSome_iff_exists.1 hsome
      cases color with
      | white => exact .inl (h.owner_unique hphase hcolor hwhite)
      | black => exact .inr (h.owner_unique hphase hcolor hblack)
    · rintro (rfl | rfl)
      · exact Option.isSome_iff_exists.2 ⟨_, hwhite⟩
      · exact Option.isSome_iff_exists.2 ⟨_, hblack⟩
  exact decide_eq_true hsize

/-- No match begins during another one. -/
theorem newMatch_eq_none (h : server.SeatsOwned user) (hphase : server.session.phase = .inGame)
    {op : Op} (hcondition : server.KeepsMatch op) : server.newMatch op = none := by
  cases hmatch : server.newMatch op with
  | none => rfl
  | some result =>
    rcases Nat.eq_zero_or_pos server.disconnectManager.graceEntries.size with hpresent | haway
    · obtain ⟨connectionId, username, record, now, rfl, hjoins, -⟩ := newMatch_eq_some hmatch
      exact absurd ((h.isReady hphase hpresent).symm.trans (hjoins.notReady hphase)) nofun
    · exact absurd (hmatch.symm.trans (hcondition.1 hphase haway)) nofun

theorem phase_of_newMatch (h : server.SeatsOwned user) {op : Op} (hcondition : server.KeepsMatch op)
    {result : MatchResult} (hmatch : server.newMatch op = some result) :
    server.session.phase = .lobby := by
  cases hphase : server.session.phase with
  | lobby => rfl
  | inGame => exact absurd (hmatch.symm.trans (h.newMatch_eq_none hphase hcondition)) nofun

/-- What keeps the match also keeps the login tables. -/
theorem keepsLogins (h : server.SeatsOwned user) {op : Op} (hlogs : op.LogsInAs user)
    (hcondition : server.KeepsMatch op) : server.KeepsLogins op := by
  constructor
  · intro result hresult
    constructor
    · intro bound hbound
      obtain ⟨connectionId, username, record, now, rfl, hjoins, hblack, hopponent⟩ :=
        newMatch_eq_some hresult
      rw [h.named.users _ bound hbound, h.named.waiting _ (mem_queue_of_opponent hopponent)]
    · exact (hcondition.2 result hresult).2
  · cases op with
    | login connectionId username =>
      intro _ bound hbound
      rw [h.named.users _ bound hbound]
      exact hlogs.symm
    | opened | joinQueue | leaveQueue | closed | queueTick | graceTick => trivial

/-- The seats as `PlayersAre` has them. -/
theorem playersAre (h : server.SeatsOwned user) :
    server.session.PlayersAre fun color username ↦ server.session.rosterName color = username := by
  refine ⟨fun connectionId color hcolor ↦ ?_, h.reserved⟩
  cases hphase : server.session.phase with
  | inGame => exact ⟨_, h.owned hphase connectionId color hcolor, rfl⟩
  | lobby =>
    rw [h.logins.clear.colors hphase] at hcolor
    exact absurd hcolor nofun

theorem of_playersAre (hlogins : server.LoginsAgree) (hnamed : server.Named user)
    (hroster : server.session.phase = .inGame →
      server.session.rosterName .white ≠ server.session.rosterName .black)
    (hplayers : server.session.PlayersAre fun color username ↦
      server.session.rosterName color = username) : server.SeatsOwned user := by
  refine ⟨hlogins, hnamed, hroster, fun _ connectionId color hcolor ↦ ?_, hplayers.awaited⟩
  obtain ⟨username, hname, hplayer⟩ := hplayers.seated connectionId color hcolor
  rw [hplayer]
  exact hname

/-- The players of a match that begins are two. -/
theorem players_ne_of_newMatch (h : server.SeatsOwned user) {op : Op}
    (hcondition : server.KeepsMatch op) {result : MatchResult}
    (hmatch : server.newMatch op = some result) :
    result.white.username ≠ result.black.username := by
  intro heq
  obtain ⟨connectionId, username, record, now, -, hjoins, hblack, -⟩ := newMatch_eq_some hmatch
  obtain ⟨hne, howner⟩ := hcondition.2 result hmatch
  have hname := h.logins.inverse.iff.1 hjoins.login
  rw [heq, hblack] at howner
  apply hne
  rw [hblack]
  exact (howner connectionId hname).symm

theorem step (h : server.SeatsOwned user) {op : Op} (hlogs : op.LogsInAs user)
    (hcondition : server.KeepsMatch op) : (server.step op).SeatsOwned user := by
  apply of_playersAre (h.logins.step (h.keepsLogins hlogs hcondition)) (h.named.step hlogs)
  · intro hlater
    cases hmatch : server.newMatch op with
    | some result =>
      rw [(session_of_newMatch hmatch).1]
      exact h.players_ne_of_newMatch hcondition hmatch
    | none =>
      obtain ⟨hphase, hroster⟩ := roster_of_inGame hmatch hlater
      rw [hroster]
      exact h.roster hphase
  · apply playersAre_step (fun roster color username ↦ roster color = username)
      (fun _ _ ↦ rfl) h.playersAre
    intro result hmatch
    exact h.logins.clear.colors (h.phase_of_newMatch hcondition hmatch)

/-- A match goes on with the same players until the session is reset. -/
theorem match_goes_on (h : server.SeatsOwned user) (hphase : server.session.phase = .inGame)
    {op : Op} (hcondition : server.KeepsMatch op) :
    (server.step op).session = server.session.resetToLobby ∨
      (server.step op).session.phase = .inGame ∧
        (server.step op).session.rosterName = server.session.rosterName := by
  cases hwinner : server.graceWinner op with
  | some winner => exact .inl (session_of_graceWinner hwinner)
  | none =>
    obtain ⟨hlater, hroster⟩ := roster_step (h.newMatch_eq_none hphase hcondition) hwinner
    exact .inr ⟨hlater.trans hphase, hroster⟩

end SeatsOwned

/-- As long as nobody is matched while a player of the running match is away, and matches are made
between two connections whose usernames are not logged in elsewhere, a running match is not
overwritten and each seat has one owner, who is logged in as the player of that colour. -/
theorem run_match {user : ConnectionId → StdString} {port : ℤ} {ops : List Op}
    (hcondition : Transition.Along WsServer.step
      (fun server op ↦ op.LogsInAs user ∧ server.KeepsMatch op) (initial port) ops) :
    let reached := run (initial port) ops
    (reached.session.phase = .inGame →
        (∀ first second color, reached.session.colorFor first = some color →
          reached.session.colorFor second = some color → first = second) ∧
          ∀ connectionId color, reached.session.colorFor connectionId = some color →
            reached.session.usernameFor connectionId = some (reached.session.rosterName color)) ∧
      Transition.Along WsServer.step (fun server op ↦ server.session.phase = .inGame →
        server.newMatch op = none ∧
          ((server.step op).session = server.session.resetToLobby ∨
            (server.step op).session.phase = .inGame ∧
              (server.step op).session.rosterName = server.session.rosterName))
        (initial port) ops := by
  intro reached
  have hinitial := seatsOwned_initial user port
  have hreached : reached.SeatsOwned user :=
    Transition.Along.invariant (fun _ _ h hop ↦ h.step hop.1 hop.2) hinitial hcondition
  constructor
  · intro hphase
    exact ⟨fun _ _ _ ↦ hreached.owner_unique hphase, hreached.owned hphase⟩
  · refine Transition.Along.imp_of_invariant (I := SeatsOwned user) ?_ hinitial hcondition
    intro server op h hop
    refine ⟨h.step hop.1 hop.2, fun hphase ↦ ?_⟩
    exact ⟨h.newMatch_eq_none hphase hop.2, h.match_goes_on hphase hop.2⟩

/-- Carl and Dora log in on connections 3 and 4 and Ann and Bob are matched. Dora is refused, Ann
leaves and Carl waits. -/
def carlWaits : List Op :=
  [.opened 3, .opened 4, .login 3 "carl".toList, .login 4 "dora".toList] ++ annMeetsBob ++
    [.joinQueue 4 none 0, .closed 1 0, .joinQueue 3 none 0]

/-- Carl waits for the whole match, and Bob holds the only seat that is taken. -/
theorem run_match_while_carl_waits :
    let reached := run (initial 0) carlWaits
    reached.session.phase = .inGame ∧
      ∀ connectionId, reached.session.colorFor connectionId = some .black →
        reached.session.usernameFor connectionId = some "bob".toList := by
  have hcondition : Transition.Along WsServer.step
      (fun server op ↦ op.LogsInAs userOfFour ∧ server.KeepsMatch op) (initial 0) carlWaits := by
    decide
  have hphase : (run (initial 0) carlWaits).session.phase = .inGame := by decide
  refine ⟨hphase, fun connectionId ↦ ?_⟩
  exact ((run_match hcondition).1 hphase).2 connectionId .black

/-- While Ann is away, Carl is matched with Dora: their match overwrites the running one, in which
Bob keeps the black seat. -/
theorem match_overwritten :
    let server := run (initial 0) carlWaits
    let later := server.step (.joinQueue 4 none 0)
    (∀ op ∈ carlWaits, op.LogsInAs userOfFour) ∧
      server.session.phase = .inGame ∧ later.session.phase = .inGame ∧
      server.newMatch (.joinQueue 4 none 0) ≠ none ∧
      server.session.rosterName .white = "ann".toList ∧
      later.session.rosterName .white = "carl".toList ∧
      later.session.colorFor 2 = some .black ∧ later.session.colorFor 4 = some .black := by
  decide

end KongFuChess.Network.WsServer
