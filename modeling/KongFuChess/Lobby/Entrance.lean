import KongFuChess.Lobby.Told
import KongFuChess.Server.News

/-!
# From the lobby into the game

The server and the lobbies of its clients. What the server sends to a connection reaches the lobby
of its client in the same order, at any later time. A start of a game is sent to every registered
client, and every lobby that learns of it leaves with a match. So a lobby enters a game of its own
player only if nobody else's game starts while it is open, and only if the two matches that it could
be told of are one.
-/

namespace KongFuChess.Session

open Model Events Network Matchmaking

/-- A client in front of its lobby. -/
structure LobbyClient where
  lobby : ShellLobby
  /-- What has been sent to the client and has not arrived. -/
  inFlight : List StdString := []
  running : Bool := true
  /-- The match with which the lobby has left its loop. -/
  entered : Option MatchInfo := none

namespace LobbyClient

/-- The messages that the lobby has not applied, in their order. -/
def messages (client : LobbyClient) : List StdString :=
  client.lobby.pendingMessages ++ client.inFlight

def send (client : LobbyClient) (texts : List StdString) : LobbyClient :=
  { client with inFlight := client.inFlight ++ texts }

def arrive (client : LobbyClient) : LobbyClient :=
  match client.inFlight with
  | [] => client
  | json :: inFlight =>
    { client with lobby := client.lobby.handleServerMessage json, inFlight := inFlight }

def frame (client : LobbyClient) (escape : Bool) : LobbyClient :=
  if client.running then
    match client.lobby.frame escape with
    | (lobby, some entered) => { client with lobby := lobby, running := false, entered := entered }
    | (lobby, none) => { client with lobby := lobby }
  else client

end LobbyClient

structure LobbySystem where
  server : WsServer
  clients : ConnectionId → LobbyClient

namespace LobbySystem

inductive Op
  | serve (op : WsServer.Op)
  | arrive (connectionId : ConnectionId)
  | click (connectionId : ConnectionId) (x y : ℤ) (sent : Bool)
  | frame (connectionId : ConnectionId) (escape : Bool)

/-- The texts that are sent to a connection. -/
def textsFor (connectionId : ConnectionId) (outputs : List Output) : List StdString :=
  outputs.filterMap fun output ↦
    match output with
    | .sent other message => if other = connectionId then some message.text else none
    | .published _ => none

/-- A connection that opens belongs to a new client, whose lobby is for the username with which it
will log in. -/
def clientFor (user : ConnectionId → StdString) (system : LobbySystem) (op : WsServer.Op)
    (connectionId : ConnectionId) : LobbyClient :=
  if op = .opened connectionId ∧ connectionId ∉ system.server.clients then
    { lobby := .ofUsername (user connectionId) }
  else system.clients connectionId

def step (user : ConnectionId → StdString) (system : LobbySystem) : Op → LobbySystem
  | .serve op =>
    { server := system.server.step op
      clients := fun connectionId ↦
        (system.clientFor user op connectionId).send
          (textsFor connectionId (system.server.outputs op)) }
  | .arrive connectionId =>
    { system with
      clients := Function.update system.clients connectionId
        (system.clients connectionId).arrive }
  | .click connectionId x y sent =>
    let client := system.clients connectionId
    { system with
      clients := Function.update system.clients connectionId
        { client with lobby := client.lobby.handleMouseClick x y sent } }
  | .frame connectionId escape =>
    { system with
      clients := Function.update system.clients connectionId
        ((system.clients connectionId).frame escape) }

def initial (user : ConnectionId → StdString) (port : ℤ) : LobbySystem :=
  { server := .initial port
    clients := fun connectionId ↦ { lobby := .ofUsername (user connectionId) } }

abbrev run (user : ConnectionId → StdString) (system : LobbySystem) (ops : List Op) :
    LobbySystem :=
  Transition.run (step user) system ops

/-! ## The texts that a connection is sent -/

theorem mem_textsFor {connectionId : ConnectionId} {outputs : List Output} {text : StdString} :
    text ∈ textsFor connectionId outputs ↔
      ∃ message, .sent connectionId message ∈ outputs ∧ message.text = text := by
  rw [textsFor, List.mem_filterMap]
  constructor
  · rintro ⟨output, hmem, htext⟩
    cases output with
    | sent other message =>
      simp only [Option.ite_none_right_eq_some, Option.some_inj] at htext
      obtain ⟨rfl, rfl⟩ := htext
      exact ⟨message, hmem, rfl⟩
    | published => exact absurd htext nofun
  · rintro ⟨message, hmem, rfl⟩
    exact ⟨_, hmem, if_pos rfl⟩

theorem silent_text {message : ServerMessage} (h : message.Quiet) :
    ShellLobby.Silent message.text :=
  ⟨parseMatchFoundMessage_of_type h.1, parseGameStartedMessage_of_type h.2⟩

theorem silent_of_quiet {outputs : List Output} (h : WsServer.Quiet outputs)
    (connectionId : ConnectionId) :
    ∀ text ∈ textsFor connectionId outputs, ShellLobby.Silent text := by
  intro text htext
  obtain ⟨message, hmem, rfl⟩ := mem_textsFor.1 htext
  exact silent_text (h connectionId message hmem)

/-- The start of a game, as it is read. -/
theorem found_gameStarted (event : GameStarted) :
    parseMatchFoundMessage (ServerMessage.gameEvent (.gameStarted event)).text = none :=
  parseMatchFoundMessage_of_type nofun

theorem fits_gameStarted (event : GameStarted) (username : StdString) :
    ShellLobby.Fits event.whiteUser event.blackUser username
      (ServerMessage.gameEvent (.gameStarted event)).text where
  found := by
    rw [found_gameStarted]
    exact nofun
  started := parseGameStartedMessage_serialize event

theorem parseGameStartedMessage_of_finds {server : WsServer} {result : MatchResult}
    {connectionId : ConnectionId} {message : ServerMessage}
    (h : server.Finds result connectionId message) :
    parseGameStartedMessage message.text = none := by
  cases h with
  | white | black => exact parseGameStartedMessage_of_type nofun

/-- The news that one of the players is matched, as it is read. -/
theorem fits_of_finds {user : ConnectionId → StdString} {server : WsServer} {result : MatchResult}
    (hwhite : result.white.username = user result.white.connectionId)
    (hblack : result.black.username = user result.black.connectionId)
    (hne : result.white.username ≠ result.black.username) {connectionId : ConnectionId}
    {message : ServerMessage} (h : server.Finds result connectionId message) :
    ShellLobby.Fits result.white.username result.black.username (user connectionId)
      message.text := by
  constructor
  · intro found hfound
    cases h with
    | white hopen heq =>
      obtain ⟨hcolor, hopponent⟩ := parseMatchFoundMessage_serialize _ _ _ found hfound
      rw [hcolor, hopponent, heq, ← hwhite, ownColor, rival, if_pos rfl, if_pos rfl]
      exact ⟨rfl, rfl⟩
    | black hopen heq =>
      obtain ⟨hcolor, hopponent⟩ := parseMatchFoundMessage_serialize _ _ _ found hfound
      rw [hcolor, hopponent, heq, ← hblack, ownColor, rival, if_neg hne.symm, if_neg hne.symm]
      exact ⟨rfl, rfl⟩
  · rw [parseGameStartedMessage_of_finds h]
    exact nofun

section Texts

variable {server : WsServer} {outputs front : List Output} {connectionId : ConnectionId}

theorem textsFor_append (first second : List Output) :
    textsFor connectionId (first ++ second) =
      textsFor connectionId first ++ textsFor connectionId second :=
  List.filterMap_append

/-- A game that starts is told to the registered clients. -/
theorem mem_textsFor_publish {event : GameEvent} {text : StdString}
    (h : text ∈ textsFor connectionId (server.publish event)) :
    connectionId ∈ server.clients ∧ text = (ServerMessage.gameEvent event).text := by
  obtain ⟨message, hmem, rfl⟩ := mem_textsFor.1 h
  rcases List.mem_cons.1 hmem with heq | hbroadcast
  · exact absurd heq nofun
  · obtain ⟨client, hclient, heq⟩ := List.mem_map.1 hbroadcast
    obtain ⟨rfl, rfl⟩ := Output.sent.inj heq
    exact ⟨hclient, rfl⟩

/-- Whoever is not registered learns nothing of a match that begins. -/
theorem silent_of_begun {result : MatchResult} {started : GameStarted}
    (hclosed : connectionId ∉ server.clients)
    (hfront : ∀ connectionId message, .sent connectionId message ∈ front →
      message = .queueJoined ∨ server.Finds result connectionId message) :
    ∀ text ∈ textsFor connectionId (front ++ server.publish (.gameStarted started)),
      ShellLobby.Silent text := by
  intro text htext
  rw [textsFor_append] at htext
  rcases List.mem_append.1 htext with hfound | hstarted
  · obtain ⟨message, hmem, rfl⟩ := mem_textsFor.1 hfound
    rcases hfront connectionId message hmem with rfl | hfinds
    · exact silent_text ⟨nofun, nofun⟩
    · cases hfinds with
      | white hopen | black hopen => exact absurd hopen hclosed
  · exact absurd (mem_textsFor_publish hstarted).1 hclosed

end Texts

/-! ## The condition and the invariant -/

/-- A match begins while no other match is on, between two usernames, and every registered client
whose lobby is still open is one of the two players and has not been told of a match before. -/
def OnlyPlayersListen (user : ConnectionId → StdString) (system : LobbySystem) : Op → Prop
  | .serve op =>
    op.LogsInAs user ∧ ∀ result ∈ system.server.newMatch op,
      system.server.session.phase = .lobby ∧ result.white.username ≠ result.black.username ∧
        ∀ connectionId ∈ system.server.clients, (system.clients connectionId).running = true →
          (user connectionId = result.white.username ∨
              user connectionId = result.black.username) ∧
            (system.clients connectionId).lobby.Untold (system.clients connectionId).messages
  | .arrive _ | .click .. | .frame .. => True

instance (user : ConnectionId → StdString) (system : LobbySystem) :
    (op : Op) → Decidable (system.OnlyPlayersListen user op)
  | .serve _ => inferInstanceAs (Decidable (_ ∧ _))
  | .arrive _ | .click .. | .frame .. => .isTrue trivial

/-- A client that is told of at most one match, which is the running one if the client is still
registered. -/
def Expects (server : WsServer) (connectionId : ConnectionId) (client : LobbyClient) : Prop :=
  client.lobby.Untold client.messages ∨
    ∃ white black, client.lobby.Told white black client.messages ∧
      (connectionId ∈ server.clients → server.session.phase = .inGame →
        server.session.rosterName .white = white ∧ server.session.rosterName .black = black)

/-- A client that only ever enters a match of its own player. -/
structure Sound (server : WsServer) (connectionId : ConnectionId) (username : StdString)
    (client : LobbyClient) : Prop where
  name : client.lobby.state.username = username
  expects : client.running = true → Expects server connectionId client
  entered : ∀ info, client.entered = some info → info.IsFor username

structure AllSound (user : ConnectionId → StdString) (system : LobbySystem) : Prop where
  roster : system.server.RosterHeld
  named : system.server.Named user
  clients : ∀ connectionId,
    Sound system.server connectionId (user connectionId) (system.clients connectionId)

/-- A client that has just been started. -/
theorem sound_ofUsername (server : WsServer) (connectionId : ConnectionId) (username : StdString) :
    Sound server connectionId username { lobby := .ofUsername username } where
  name := rfl
  expects := fun _ ↦ .inl ⟨nofun, rfl, rfl⟩
  entered := nofun

theorem allSound_initial (user : ConnectionId → StdString) (port : ℤ) :
    (initial user port).AllSound user where
  roster := WsServer.rosterHeld_initial port
  named := WsServer.named_initial user port
  clients := fun connectionId ↦ sound_ofUsername _ connectionId (user connectionId)

theorem messages_send (client : LobbyClient) (texts : List StdString) :
    (client.send texts).messages = client.messages ++ texts :=
  (List.append_assoc ..).symm

namespace Expects

variable {server : WsServer} {connectionId : ConnectionId} {client : LobbyClient}

/-- Texts that tell of no match, while the match of the client goes on. -/
theorem silent {later : WsServer} (h : Expects server connectionId client)
    {texts : List StdString} (htexts : ∀ text ∈ texts, ShellLobby.Silent text)
    (hlater : connectionId ∈ later.clients → later.session.phase = .inGame →
      connectionId ∈ server.clients ∧ server.session.phase = .inGame ∧
        later.session.rosterName = server.session.rosterName) :
    Expects later connectionId (client.send texts) := by
  unfold Expects
  rw [messages_send]
  rcases h with huntold | ⟨white, black, htold, hroster⟩
  · exact .inl (huntold.append htexts)
  · refine .inr ⟨white, black, htold.append ?_ fun text htext ↦ (htexts text htext).1, ?_⟩
    · exact fun text htext ↦ (htexts text htext).fits ..
    · intro hclient hphase
      obtain ⟨hbefore, hgame, hsame⟩ := hlater hclient hphase
      rw [hsame]
      exact hroster hbefore hgame

/-- The client's player comes back to the running match. -/
theorem resumed {later : WsServer} {username : StdString} {color : Color}
    {port : ℤ} {front : List Output} (h : Expects server connectionId client)
    (hheld : server.RosterHeld) (hname : client.lobby.state.username = username)
    (hopen : connectionId ∈ server.clients)
    (hreserved : server.session.reservedFor username = some color)
    (hfront : WsServer.Quiet front)
    (hlater : later.session.rosterName = server.session.rosterName) :
    Expects later connectionId (client.send (textsFor connectionId (front ++
      [.sent connectionId (.gameEvent (.gameStarted
        ⟨server.session.rosterName .white, server.session.rosterName .black, port⟩))]))) := by
  have hphase : server.session.phase = .inGame := by
    cases hphase : server.session.phase with
    | inGame => rfl
    | lobby => exact absurd (hreserved.symm.trans (hheld.clear.reserved hphase username)) nofun
  have htexts : ∀ text ∈ textsFor connectionId (front ++
      [.sent connectionId (.gameEvent (.gameStarted
        ⟨server.session.rosterName .white, server.session.rosterName .black, port⟩))]),
      parseMatchFoundMessage text = none ∧
        ShellLobby.Fits (server.session.rosterName .white) (server.session.rosterName .black)
          client.lobby.state.username text := by
    intro text htext
    obtain ⟨message, hmem, rfl⟩ := mem_textsFor.1 htext
    rcases List.mem_append.1 hmem with hquiet | hstarted
    · have hsilent := silent_text (hfront connectionId message hquiet)
      exact ⟨hsilent.1, hsilent.fits ..⟩
    · obtain ⟨-, rfl⟩ := Output.sent.inj (List.mem_singleton.1 hstarted)
      exact ⟨found_gameStarted _, fits_gameStarted
        ⟨server.session.rosterName .white, server.session.rosterName .black, port⟩ _⟩
  unfold Expects
  rw [messages_send]
  refine .inr ⟨server.session.rosterName .white, server.session.rosterName .black, ?_, ?_⟩
  · rcases h with huntold | ⟨white, black, htold, hroster⟩
    · refine huntold.told ?_ (fun text htext ↦ (htexts text htext).2) ?_
      · obtain ⟨seat, hseat⟩ := hheld.awaited username color hreserved
        rw [hname, ← hseat]
        cases seat with
        | white => exact .inl rfl
        | black => exact .inr rfl
      · exact List.pairwise_of_forall_mem_list fun _ _ later hlater _ ↦ (htexts later hlater).1
    · obtain ⟨rfl, rfl⟩ := hroster hopen hphase
      exact htold.append (fun text htext ↦ (htexts text htext).2)
        fun text htext ↦ (htexts text htext).1
  · rw [hlater]
    exact fun _ _ ↦ ⟨rfl, rfl⟩

/-- The match of the client's player begins. -/
theorem begun {user : ConnectionId → StdString} {later : WsServer} {result : MatchResult} {port : ℤ}
    {front : List Output} (huntold : client.lobby.Untold client.messages)
    (hname : client.lobby.state.username = user connectionId)
    (hplayer : user connectionId = result.white.username ∨
      user connectionId = result.black.username)
    (hwhite : result.white.username = user result.white.connectionId)
    (hblack : result.black.username = user result.black.connectionId)
    (hne : result.white.username ≠ result.black.username)
    (hfront : ∀ connectionId message, .sent connectionId message ∈ front →
      message = .queueJoined ∨ server.Finds result connectionId message)
    (hlater : later.session = server.session.beginMatch result) :
    Expects later connectionId (client.send (textsFor connectionId (front ++
      server.publish (.gameStarted ⟨result.white.username, result.black.username, port⟩)))) := by
  have hfound : ∀ text ∈ textsFor connectionId front, parseGameStartedMessage text = none ∧
      ShellLobby.Fits result.white.username result.black.username (user connectionId) text := by
    intro text htext
    obtain ⟨message, hmem, rfl⟩ := mem_textsFor.1 htext
    rcases hfront connectionId message hmem with rfl | hfinds
    · have hsilent : ShellLobby.Silent ServerMessage.queueJoined.text :=
        silent_text ⟨nofun, nofun⟩
      exact ⟨hsilent.2, hsilent.fits ..⟩
    · exact ⟨parseGameStartedMessage_of_finds hfinds, fits_of_finds hwhite hblack hne hfinds⟩
  have hstarted : ∀ text ∈ textsFor connectionId
      (server.publish (.gameStarted ⟨result.white.username, result.black.username, port⟩)),
      parseMatchFoundMessage text = none ∧
        ShellLobby.Fits result.white.username result.black.username (user connectionId) text := by
    intro text htext
    rw [(mem_textsFor_publish htext).2]
    exact ⟨found_gameStarted _,
      fits_gameStarted ⟨result.white.username, result.black.username, port⟩ _⟩
  unfold Expects
  rw [messages_send, textsFor_append]
  refine .inr ⟨result.white.username, result.black.username, huntold.told ?_ ?_ ?_, ?_⟩
  · rw [hname]
    exact hplayer
  · rw [hname]
    intro text htext
    rcases List.mem_append.1 htext with hmem | hmem
    · exact (hfound text hmem).2
    · exact (hstarted text hmem).2
  · -- The match is found in front of the start of the game.
    refine List.pairwise_append.2 ⟨?_, ?_, ?_⟩
    · exact List.pairwise_of_forall_mem_list fun earlier hearlier _ _ hne ↦
        absurd (hfound earlier hearlier).1 hne
    · exact List.pairwise_of_forall_mem_list fun _ _ later hlater _ ↦ (hstarted later hlater).1
    · exact fun _ _ later hlater _ ↦ (hstarted later hlater).1
  · rw [hlater]
    exact fun _ _ ↦ ⟨rfl, rfl⟩

end Expects

/-! ## What a client does -/

section Client

variable {server : WsServer} {connectionId : ConnectionId} {username : StdString}
  {client : LobbyClient}

/-- A message that arrives has been sent before. -/
theorem Sound.arrive (h : Sound server connectionId username client) :
    Sound server connectionId username client.arrive := by
  unfold LobbyClient.arrive
  split
  · exact h
  · rename_i json inFlight hsent
    refine ⟨h.name, fun hrunning ↦ ?_, h.entered⟩
    have hsame : (client.lobby.pendingMessages ++ [json]) ++ inFlight = client.messages := by
      rw [LobbyClient.messages, hsent]
      exact (List.append_cons ..).symm
    rcases h.expects hrunning with huntold | ⟨white, black, htold, hroster⟩
    · refine .inl ⟨?_, huntold.noMatch, huntold.stays⟩
      rw [LobbyClient.messages, ShellLobby.handleServerMessage, hsame]
      exact huntold.silent
    · refine .inr ⟨white, black, ?_, hroster⟩
      rw [LobbyClient.messages, ShellLobby.handleServerMessage, hsame]
      exact ⟨htold.player, htold.fits, htold.ordered, htold.pending, htold.started⟩

/-- A click changes what the lobby shows only. -/
theorem Sound.click (h : Sound server connectionId username client) (x y : ℤ) (sent : Bool) :
    Sound server connectionId username
      { client with lobby := client.lobby.handleMouseClick x y sent } := by
  obtain ⟨state, hclick, hsame⟩ := client.lobby.handleMouseClick_cases x y sent
  rw [hclick]
  refine ⟨hsame.trans h.name, fun hrunning ↦ ?_, h.entered⟩
  rcases h.expects hrunning with huntold | ⟨white, black, htold, hroster⟩
  · exact .inl ⟨huntold.silent, huntold.noMatch, huntold.stays⟩
  · refine .inr ⟨white, black, ?_, hroster⟩
    constructor
    · rw [hsame]
      exact htold.player
    · rw [hsame]
      exact htold.fits
    · exact htold.ordered
    · rw [hsame]
      exact htold.pending
    · exact htold.started

/-- The messages that have arrived are applied. -/
theorem Expects.drain (h : Expects server connectionId client) :
    Expects server connectionId { client with lobby := client.lobby.drainPendingMessages } := by
  have hrest : (client.lobby.drainPendingMessages).pendingMessages ++ client.inFlight =
      client.inFlight := by
    rw [client.lobby.drainPendingMessages_keeps.1]
    rfl
  unfold Expects LobbyClient.messages
  rw [hrest]
  rcases h with huntold | ⟨white, black, htold, hroster⟩
  · exact .inl huntold.drain
  · exact .inr ⟨white, black, htold.drain, hroster⟩

/-- A lobby that leaves with a match has been told of it. -/
theorem Expects.isFor (h : Expects server connectionId client)
    (hexit : client.lobby.exitWithMatch = true) {info : MatchInfo}
    (hinfo : client.lobby.pendingMatch = some info) : info.IsFor client.lobby.state.username := by
  rcases h with huntold | ⟨white, black, htold, -⟩
  · exact absurd (hexit.symm.trans huntold.stays) nofun
  · exact htold.isFor hexit hinfo

theorem Sound.frame (h : Sound server connectionId username client) (escape : Bool) :
    Sound server connectionId username (client.frame escape) := by
  have husername := client.lobby.drainPendingMessages_keeps.2.trans h.name
  unfold LobbyClient.frame
  split
  · rename_i hrunning
    have hdrained := (h.expects hrunning).drain
    unfold ShellLobby.frame
    by_cases hexit : client.lobby.drainPendingMessages.exitWithMatch = true
    · simp only [hexit, if_true]
      refine ⟨husername, nofun, fun info hinfo ↦ ?_⟩
      rw [← husername]
      exact hdrained.isFor hexit hinfo
    · simp only [hexit]
      cases escape with
      | true => exact ⟨husername, nofun, nofun⟩
      | false => exact ⟨husername, fun _ ↦ hdrained, h.entered⟩
  · exact h

end Client

/-! ## What the server sends -/

section Server

variable {user : ConnectionId → StdString} {system : LobbySystem}

/-- What is sent when a match begins. -/
theorem AllSound.expects_newMatch (h : system.AllSound user) {op : WsServer.Op}
    (hcondition : system.OnlyPlayersListen user (.serve op)) {connectionId : ConnectionId}
    (hrunning : (system.clients connectionId).running = true) {result : MatchResult}
    (hmatch : system.server.newMatch op = some result) :
    Expects (system.server.step op) connectionId
      ((system.clients connectionId).send
        (textsFor connectionId (system.server.outputs op))) := by
  have hexpects := (h.clients connectionId).expects hrunning
  obtain ⟨hsession, hclients⟩ := WsServer.session_of_newMatch hmatch
  obtain ⟨hlobby, hne, hlisten⟩ := hcondition.2 result hmatch
  have hlater : connectionId ∈ (system.server.step op).clients →
      connectionId ∈ system.server.clients := fun hclient ↦ hclients ▸ hclient
  cases system.server.news op with
  | none hquiet =>
    by_cases hopen : connectionId ∈ system.server.clients
    · have huntold := (hlisten connectionId hopen hrunning).2
      unfold Expects
      rw [messages_send]
      exact .inl (huntold.append (silent_of_quiet hquiet connectionId))
    · exact hexpects.silent (silent_of_quiet hquiet connectionId)
        fun hclient ↦ absurd (hlater hclient) hopen
  | begun front hbegun hfront hback =>
    obtain rfl := Option.some.inj (hbegun.symm.trans hmatch)
    rw [hback]
    by_cases hopen : connectionId ∈ system.server.clients
    · obtain ⟨hplayer, huntold⟩ := hlisten connectionId hopen hrunning
      obtain ⟨hwhite, hblack⟩ := h.named.of_newMatch hmatch
      exact Expects.begun huntold (h.clients connectionId).name hplayer hwhite hblack hne hfront
        hsession
    · exact hexpects.silent (silent_of_begun hopen hfront)
        fun hclient ↦ absurd (hlater hclient) hopen
  | resumed front hop =>
    subst hop
    exact absurd hmatch nofun

/-- What is sent when no match begins. -/
theorem AllSound.expects_noMatch (h : system.AllSound user) {op : WsServer.Op}
    (hlogs : op.LogsInAs user) {connectionId : ConnectionId}
    (hrunning : (system.clients connectionId).running = true)
    (hknown : op = .opened connectionId → connectionId ∈ system.server.clients)
    (hmatch : system.server.newMatch op = none) :
    Expects (system.server.step op) connectionId
      ((system.clients connectionId).send
        (textsFor connectionId (system.server.outputs op))) := by
  have hexpects := (h.clients connectionId).expects hrunning
  have hlater : connectionId ∈ (system.server.step op).clients →
      (system.server.step op).session.phase = .inGame →
        connectionId ∈ system.server.clients ∧ system.server.session.phase = .inGame ∧
          (system.server.step op).session.rosterName = system.server.session.rosterName := by
    intro hclient hphase
    refine ⟨?_, WsServer.roster_of_inGame hmatch hphase⟩
    exact (WsServer.mem_clients_step hclient).elim id hknown
  cases system.server.news op with
  | none hquiet => exact hexpects.silent (silent_of_quiet hquiet connectionId) hlater
  | begun front hbegun => exact absurd (hbegun.symm.trans hmatch) nofun
  | @resumed other username color port front hop hopen hreserved hfront hback =>
    subst hop
    rw [hback]
    by_cases hself : connectionId = other
    · subst hself
      have husername := (h.clients connectionId).name.trans hlogs.symm
      apply hexpects.resumed h.roster husername hopen hreserved hfront
      exact (WsServer.roster_step hmatch rfl).2
    · refine hexpects.silent ?_ hlater
      intro text htext
      obtain ⟨message, hmem, rfl⟩ := mem_textsFor.1 htext
      rcases List.mem_append.1 hmem with hquiet | hstarted
      · exact silent_text (hfront connectionId message hquiet)
      · exact absurd (Output.sent.inj (List.mem_singleton.1 hstarted)).1 hself

/-- What is sent does not change what a client has entered. -/
theorem AllSound.sound_serve (h : system.AllSound user) {op : WsServer.Op}
    (hcondition : system.OnlyPlayersListen user (.serve op)) (connectionId : ConnectionId) :
    Sound (system.server.step op) connectionId (user connectionId)
      ((system.clientFor user op connectionId).send
        (textsFor connectionId (system.server.outputs op))) := by
  unfold clientFor
  split
  · rename_i hopened
    obtain ⟨rfl, -⟩ := hopened
    exact sound_ofUsername _ connectionId (user connectionId)
  · rename_i hknown
    have hclient := h.clients connectionId
    refine ⟨hclient.name, fun hrunning ↦ ?_, hclient.entered⟩
    cases hmatch : system.server.newMatch op with
    | some result => exact h.expects_newMatch hcondition hrunning hmatch
    | none =>
      refine h.expects_noMatch hcondition.1 hrunning ?_ hmatch
      exact fun hopened ↦ not_not.1 fun hclosed ↦ hknown ⟨hopened, hclosed⟩

/-- One client changes by itself. -/
theorem AllSound.update (h : system.AllSound user) {connectionId : ConnectionId}
    {client : LobbyClient}
    (hclient : Sound system.server connectionId (user connectionId) client) :
    ({ system with clients := Function.update system.clients connectionId client } :
      LobbySystem).AllSound user := by
  refine ⟨h.roster, h.named, fun other ↦ ?_⟩
  change Sound system.server other (user other)
    (Function.update system.clients connectionId client other)
  by_cases hself : other = connectionId
  · subst hself
    rw [Function.update_self]
    exact hclient
  · rw [Function.update_of_ne hself]
    exact h.clients other

theorem AllSound.step (h : system.AllSound user) {op : Op}
    (hcondition : system.OnlyPlayersListen user op) : (system.step user op).AllSound user := by
  cases op with
  | serve op =>
    constructor
    · exact h.roster.step fun result hmatch ↦ (hcondition.2 result hmatch).1
    · exact h.named.step hcondition.1
    · exact h.sound_serve hcondition
  | arrive connectionId =>
    exact h.update (h.clients connectionId).arrive
  | click connectionId x y sent =>
    exact h.update ((h.clients connectionId).click x y sent)
  | frame connectionId escape =>
    exact h.update ((h.clients connectionId).frame escape)

end Server

/-- Where only the players of a match listen when it begins, whoever enters a game is one of its
players, on the own side and against the other player. -/
theorem run_entered {user : ConnectionId → StdString} {port : ℤ} {ops : List Op}
    (hcondition : Transition.Along (step user) (OnlyPlayersListen user) (initial user port) ops) :
    let reached := run user (initial user port) ops
    (∀ op, reached.server.TellsMatch op) ∧
      ∀ connectionId info, (reached.clients connectionId).entered = some info →
        info.IsFor (user connectionId) := by
  intro reached
  have hreached : reached.AllSound user :=
    Transition.Along.invariant (fun _ _ h hop ↦ h.step hop) (allSound_initial user port) hcondition
  exact ⟨reached.server.tellsMatch, fun connectionId ↦ (hreached.clients connectionId).entered⟩

/-- Ann and Bob are matched, and Ann's messages arrive before her lobby draws a frame. -/
def annEnters : List Op :=
  WsServer.annMeetsBob.map .serve ++
    [.click 1 150 230 true, .arrive 1, .arrive 1, .arrive 1, .arrive 1, .frame 1 false]

theorem run_entered_of_ann :
    let reached := run WsServer.userOfFour (initial WsServer.userOfFour 0) annEnters
    ∃ info, (reached.clients 1).entered = some info ∧ info.IsFor "ann".toList := by
  have hcondition : Transition.Along (step WsServer.userOfFour)
      (OnlyPlayersListen WsServer.userOfFour) (initial WsServer.userOfFour 0) annEnters := by
    decide +kernel
  have hentered : ((run WsServer.userOfFour (initial WsServer.userOfFour 0) annEnters).clients
      1).entered = some ⟨.white, "bob".toList, 0, "ann".toList, "bob".toList⟩ := by
    decide +kernel
  exact ⟨_, hentered, (run_entered hcondition).2 1 _ hentered⟩

/-- Carl has logged in and looks at his lobby when Ann and Bob are matched. -/
def carlLogsIn : List WsServer.Op :=
  [.opened 3, .login 3 "carl".toList] ++ WsServer.annMeetsBob

def carlListens : List Op :=
  carlLogsIn.map .serve ++ [.arrive 3, .arrive 3, .frame 3 false]

/-- Carl enters the game of Ann and Bob, as Black and against Ann. -/
theorem carl_enters :
    let reached := run WsServer.userOfFour (initial WsServer.userOfFour 0) carlListens
    (∀ op ∈ carlLogsIn, op.LogsInAs WsServer.userOfFour) ∧
      ∃ info, (reached.clients 3).entered = some info ∧ info.color = .black ∧
        info.opponent = "ann".toList ∧ info.whiteUser = "ann".toList ∧
        info.blackUser = "bob".toList ∧ ¬ info.IsFor (WsServer.userOfFour 3) := by
  have hlogs : ∀ op ∈ carlLogsIn, op.LogsInAs WsServer.userOfFour := by decide
  have hentered : ((run WsServer.userOfFour (initial WsServer.userOfFour 0) carlListens).clients
      3).entered = some ⟨.black, "ann".toList, 0, "ann".toList, "bob".toList⟩ := by
    decide +kernel
  refine ⟨hlogs, _, hentered, rfl, rfl, rfl, rfl, fun h ↦ ?_⟩
  rcases h.player with hwhite | hblack
  · exact absurd hwhite (by decide)
  · exact absurd hblack (by decide)

end LobbySystem

end KongFuChess.Session
