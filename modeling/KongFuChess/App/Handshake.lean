import KongFuChess.App.GameLoop
import KongFuChess.Io.BoardSetup
import KongFuChess.Network.LocalWsClient

/-!
# The login of a client

Clients and the server of the host exchange texts over connections that deliver them in order and
after any delay. Other clients, the timers of the server and the game loop of the host act in
between. Whatever the interleaving, the first text that the server reads from a client is its login,
any other text has been written after the server has answered that login, and a client thinks that
it has a colour only if the server has given it that colour.
-/

namespace KongFuChess.App

open Model Events Network Session Matchmaking

/-- One connection, seen from both ends. -/
structure Link where
  client : LocalWsClient
  /-- The client has opened the connection and does not leave yet. -/
  isConnected : Bool := false
  /-- The client reads what arrives, also while it leaves. -/
  isListening : Bool := false
  /-- The server has seen the connection open and not close. -/
  isOpen : Bool := false
  /-- The texts on the way to the server. -/
  toServer : List StdString := []
  /-- The texts on the way to the client. -/
  toClient : List StdString := []
  /-- The texts that the server has read since the connection was opened. -/
  heard : List StdString := []
  /-- The messages that the server has sent since the connection was opened. -/
  told : List ServerMessage := []

namespace Link

/-- The connection opens, and the client sends its login. -/
def connect (link : Link) : Link :=
  let client := link.client.disconnect
  { client := client, isConnected := true, isListening := true, isOpen := true
    toServer := client.handleOpen }

/-- The client forgets its login first, and can still read before the connection is stopped. -/
def leave (link : Link) : Link :=
  { link with client := link.client.disconnect, isConnected := false }

/-- What the client has sent before it leaves still arrives. -/
def stop (link : Link) : Link :=
  if link.isConnected then link else { link with isListening := false, toClient := [] }

/-- The client does not notice that the server has lost the connection. -/
def close (link : Link) : Link := { link with isOpen := false, toServer := [] }

def deliver (link : Link) (messages : List ServerMessage) : Link :=
  if link.isOpen then
    { link with
      toClient :=
        if link.isListening then link.toClient ++ messages.map ServerMessage.text
        else link.toClient
      told := link.told ++ messages }
  else link

/-- The client reads the next text. -/
def arrive (link : Link) : Link :=
  match link.toClient with
  | [] => link
  | json :: rest => { link with client := link.client.handleMessage json, toClient := rest }

/-- What is sent on a connection that is not open any more is lost. -/
def request (link : Link) (request : LocalWsClient.Request) : Link :=
  if link.isOpen && link.isListening then
    { link with toServer := link.toServer ++ (link.client.send request).2 }
  else link

/-- The server reads the next text. -/
def hear (link : Link) (text : StdString) (rest : List StdString) : Link :=
  { link with toServer := rest, heard := link.heard ++ [text] }

end Link

/-- What is sent to one connection. -/
def messagesFor (connectionId : ConnectionId) (outputs : List Output) : List ServerMessage :=
  outputs.filterMap fun
    | .sent receiver message => if receiver = connectionId then some message else none
    | .published _ => none

structure Handshake where
  host : Host
  links : ConnectionId → Link

namespace Handshake

inductive Op
  | connect (connectionId : ConnectionId)
  /-- The server reads the next text of a connection. -/
  | received (connectionId : ConnectionId) (record : Option ℤ) (now : TimePoint)
  /-- The client reads the next text of its connection. -/
  | arrived (connectionId : ConnectionId)
  | request (connectionId : ConnectionId) (request : LocalWsClient.Request)
  /-- The client leaves, because its player does or because no answer has come in time. -/
  | leave (connectionId : ConnectionId)
  | stop (connectionId : ConnectionId)
  | closed (connectionId : ConnectionId) (now : TimePoint)
  /-- A timer of the server, or the game loop of the host. -/
  | main (op : Host.Op)
deriving DecidableEq, Repr

def setLink (system : Handshake) (connectionId : ConnectionId) (link : Link) : Handshake :=
  { system with links := Function.update system.links connectionId link }

/-- The host has done something, and what it sends is on the way. -/
def route (system : Handshake) (result : List Output × Host) : Handshake where
  host := result.2
  links := fun connectionId ↦
    (system.links connectionId).deliver (messagesFor connectionId result.1)

/-- What the main thread does. The events that the engine publishes are broadcast. -/
def performMain (host : Host) : Host.Op → List Output × Host
  | .opened .. | .received .. | .closed .. => ([], host)
  | op =>
    let (served, later) := host.perform op
    (served ++ (publishedSince host.gameEngine later.gameEngine).flatMap later.server.publish,
      later)

def step (system : Handshake) : Op → Handshake
  | .connect connectionId =>
    let link := system.links connectionId
    if link.isOpen || link.client.loggedIn then system
    else
      (system.setLink connectionId link.connect).route
        (system.host.perform (.opened connectionId))
  | .received connectionId record now =>
    let link := system.links connectionId
    match link.toServer with
    | [] => system
    | text :: rest =>
      (system.setLink connectionId (link.hear text rest)).route
        (system.host.handleClientMessage connectionId text record now)
  | .arrived connectionId =>
    system.setLink connectionId (system.links connectionId).arrive
  | .request connectionId request =>
    system.setLink connectionId ((system.links connectionId).request request)
  | .leave connectionId => system.setLink connectionId (system.links connectionId).leave
  | .stop connectionId => system.setLink connectionId (system.links connectionId).stop
  | .closed connectionId now =>
    let link := system.links connectionId
    if link.isOpen then
      (system.setLink connectionId link.close).route
        (system.host.perform (.closed connectionId now))
    else system
  | .main op => system.route (performMain system.host op)

/-- Nobody is connected, and every connection belongs to one player. -/
def start (host : Host) (username : ConnectionId → StdString) : Handshake where
  host := host
  links := fun connectionId ↦ { client := { username := username connectionId } }

abbrev run (system : Handshake) (ops : List Op) : Handshake := Transition.run step system ops

end Handshake

/-! ## Answers to logins -/

def loginReplies (messages : List ServerMessage) : List StdString :=
  messages.filterMap fun
    | .loginOk label => some label
    | _ => none

/-- The message does not answer a login. -/
def NoReply (message : ServerMessage) : Prop := ∀ label, message ≠ .loginOk label

theorem noReply_of_ordinary {message : ServerMessage} (h : message.Ordinary) : NoReply message := by
  rintro label rfl
  exact h

theorem loginReplies_append (first second : List ServerMessage) :
    loginReplies (first ++ second) = loginReplies first ++ loginReplies second :=
  List.filterMap_append ..

theorem mem_messagesFor {connectionId : ConnectionId} {outputs : List Output}
    {message : ServerMessage} :
    message ∈ messagesFor connectionId outputs ↔ .sent connectionId message ∈ outputs := by
  rw [messagesFor, List.mem_filterMap]
  constructor
  · rintro ⟨output, hmem, heq⟩
    cases output with
    | published event => exact absurd heq.symm (Option.some_ne_none message)
    | sent receiver other =>
      dsimp only at heq
      split at heq
      · rename_i hreceiver
        rw [← hreceiver, ← Option.some.inj heq]
        exact hmem
      · exact absurd heq.symm (Option.some_ne_none message)
  · intro hmem
    exact ⟨_, hmem, if_pos rfl⟩

theorem messagesFor_append (connectionId : ConnectionId) (first second : List Output) :
    messagesFor connectionId (first ++ second) =
      messagesFor connectionId first ++ messagesFor connectionId second :=
  List.filterMap_append ..

theorem messagesFor_sent (connectionId : ConnectionId) (message : ServerMessage)
    (outputs : List Output) :
    messagesFor connectionId (.sent connectionId message :: outputs) =
      message :: messagesFor connectionId outputs :=
  List.filterMap_cons_some (if_pos rfl)

theorem loginReplies_eq_nil {messages : List ServerMessage}
    (h : ∀ message ∈ messages, NoReply message) : loginReplies messages = [] := by
  rw [loginReplies, List.filterMap_eq_nil_iff]
  intro message hmem
  cases message with
  | loginOk label => exact absurd rfl (h _ hmem label)
  | error | queueJoined | queueLeft | queueTimeout | matchFound | playerDisconnected
  | playerReconnected | gameEvent => rfl

theorem loginReplies_messagesFor {connectionId : ConnectionId} {outputs : List Output}
    (h : AllSent (fun receiver message ↦ receiver = connectionId → NoReply message) outputs) :
    loginReplies (messagesFor connectionId outputs) = [] :=
  loginReplies_eq_nil fun message hmem ↦ h connectionId message (mem_messagesFor.1 hmem) rfl

/-- The messages of the handlers that answer no login. -/
theorem loginReplies_of_ordinary {outputs : List Output}
    (h : AllSent (fun _ ↦ ServerMessage.Ordinary) outputs) (connectionId : ConnectionId) :
    loginReplies (messagesFor connectionId outputs) = [] :=
  loginReplies_messagesFor (h.mono fun _ _ hmessage _ ↦ noReply_of_ordinary hmessage)

section Replies

variable (host : Host) (sender : ConnectionId) {text : StdString} (record : Option ℤ)
  (now : TimePoint)

theorem fst_handleClientMessage_of_login (h : ¬ LocalWsClient.IsNoLogin text) :
    ∃ username, (host.handleClientMessage sender text record now).1 =
      (host.server.handleLogin sender username).1 := by
  obtain ⟨command, hparse⟩ : ∃ command, parseClientMessage text = some (.login command) := by
    simpa [LocalWsClient.IsNoLogin] using h
  refine ⟨command.username, ?_⟩
  rw [Host.handleClientMessage, hparse]
  rfl

/-- Only a login is answered as one. -/
theorem loginReplies_of_isNoLogin (h : LocalWsClient.IsNoLogin text) (connectionId : ConnectionId) :
    loginReplies (messagesFor connectionId
      (host.handleClientMessage sender text record now).1) = [] := by
  have herror : ∀ message, loginReplies (messagesFor connectionId
      [.sent sender (.error message)]) = [] := by
    intro message
    apply loginReplies_messagesFor
    exact .sent fun _ _ ↦ ServerMessage.noConfusion
  unfold Host.handleClientMessage
  split
  · exact herror _
  · rename_i command hparse
    split
    · exact absurd hparse (h _)
    · exact loginReplies_of_ordinary (host.server.allSent_handleJoinQueue sender record now) _
    · exact loginReplies_of_ordinary (host.server.allSent_handleLeaveQueue sender) _
    · split
      · exact herror _
      · rfl
    · split
      · exact herror _
      · rfl

/-- A text is answered as a login at most once. -/
theorem loginReplies_sender :
    loginReplies (messagesFor sender (host.handleClientMessage sender text record now).1) = [] ∨
      ∃ seat, loginReplies (messagesFor sender
        (host.handleClientMessage sender text record now).1) = [seatLabel seat] := by
  by_cases hlogin : LocalWsClient.IsNoLogin text
  · exact .inl (loginReplies_of_isNoLogin host sender record now hlogin sender)
  obtain ⟨username, heq⟩ := fst_handleClientMessage_of_login host sender record now hlogin
  rw [heq]
  unfold WsServer.handleLogin
  split
  · split
    · rename_i session _
      have hnews : loginReplies (messagesFor sender (WsServer.broadcast
          { host.server with
            session := session
            disconnectManager := host.server.disconnectManager.onReconnect username }
          (.playerReconnected username))) = [] :=
        loginReplies_of_ordinary (.broadcast _ fun _ ↦
          show ServerMessage.Ordinary (.playerReconnected _) from trivial) sender
      rw [messagesFor_append, loginReplies_append, hnews, List.nil_append]
      split
      · exact .inl (by rw [messagesFor_sent]; rfl)
      · rename_i color _
        exact .inr ⟨some color, by rw [messagesFor_sent, messagesFor_sent]; rfl⟩
    · exact .inl (by rw [messagesFor_sent]; rfl)
  · split
    · right
      rename_i session _
      cases hcolor : session.colorFor sender with
      | none => exact ⟨none, by rw [messagesFor_sent]; rfl⟩
      | some color => exact ⟨some color, by rw [messagesFor_sent]; rfl⟩
    · exact .inl (by rw [messagesFor_sent]; rfl)

/-- The answer to a login goes only to the connection that the login comes from. -/
theorem loginReplies_other {connectionId : ConnectionId} (hne : connectionId ≠ sender) :
    loginReplies (messagesFor connectionId
      (host.handleClientMessage sender text record now).1) = [] := by
  by_cases hlogin : LocalWsClient.IsNoLogin text
  · exact loginReplies_of_isNoLogin host sender record now hlogin connectionId
  obtain ⟨username, heq⟩ := fst_handleClientMessage_of_login host sender record now hlogin
  rw [heq]
  apply loginReplies_messagesFor
  refine AllSent.mono (host.server.allSent_handleLogin sender username) ?_
  rintro receiver message (hmessage | ⟨rfl, -⟩) heq
  · exact noReply_of_ordinary hmessage
  · exact absurd heq.symm hne

/-- What the main thread does answers no login. -/
theorem loginReplies_performMain (op : Host.Op) (connectionId : ConnectionId) :
    loginReplies (messagesFor connectionId (Handshake.performMain host op).1) = [] := by
  have hpublished : ∀ (server : WsServer) (events : List GameEvent),
      AllSent (fun _ ↦ NoReply) (events.flatMap server.publish) :=
    fun server events ↦ .flatMap fun _ _ ↦ .publish server fun _ _ ↦ ServerMessage.noConfusion
  have hnoReply : ∀ {outputs}, AllSent (fun _ ↦ ServerMessage.Ordinary) outputs →
      AllSent (fun _ ↦ NoReply) outputs :=
    fun h ↦ h.mono fun _ _ ↦ noReply_of_ordinary
  apply loginReplies_messagesFor
  refine AllSent.mono (P := fun _ ↦ NoReply) ?_ fun _ _ hmessage _ ↦ hmessage
  cases op with
  | opened | received | closed => exact .nil
  | queueTick now =>
    exact (hnoReply (host.server.allSent_tickQueueTimeouts now)).append (hpublished _ _)
  | graceTick now order =>
    exact (hnoReply (host.server.allSent_tickGrace now order)).append (hpublished _ _)
  | gameEnded winner => exact AllSent.nil.append (hpublished _ _)
  | drain => exact AllSent.nil.append (hpublished _ _)
  | processNext => exact AllSent.nil.append (hpublished _ _)
  | advanceTime ms => exact AllSent.nil.append (hpublished _ _)

end Replies

/-! ## One connection -/

namespace Link

/-- What both ends of a connection know of each other. -/
structure Sound (username : StdString) (link : Link) : Prop where
  named : link.client.username = username
  stopped : link.isListening = false → link.isConnected = false ∧ link.toClient = []
  sent : link.heard ++ link.toServer = [] ∨
    ∃ commands, link.heard ++ link.toServer = serializeLoginCommand username :: commands ∧
      (∀ command ∈ commands, LocalWsClient.IsNoLogin command) ∧
      (commands ≠ [] → loginReplies link.told ≠ [])
  answered : loginReplies link.told = [] ∨
    link.heard ≠ [] ∧ ∃ seat, loginReplies link.told = [seatLabel seat]
  /-- The client has read the first of the messages. -/
  read : ∃ received pending, link.told = received ++ pending ∧
    link.toClient = pending.map ServerMessage.text ∧
    (link.client.loggedIn = true → loginReplies received ≠ []) ∧
    (link.isConnected = true → loginReplies received ≠ [] → link.client.loggedIn = true)
  color : (link.client.loggedIn = true →
      ∃ seat, loginReplies link.told = [seatLabel seat] ∧ link.client.assignedColor = seat) ∧
    (link.client.loggedIn = false → link.client.assignedColor = none)

namespace Sound

variable {username : StdString} {link : Link}

theorem start (username : StdString) : Sound username { client := { username := username } } where
  named := rfl
  stopped _ := ⟨rfl, rfl⟩
  sent := .inl rfl
  answered := .inl rfl
  read := ⟨[], [], rfl, rfl, (absurd · Bool.false_ne_true), fun _ hreplies ↦ absurd rfl hreplies⟩
  color := ⟨(absurd · Bool.false_ne_true), fun _ ↦ rfl⟩

theorem connect (h : Sound username link) : Sound username link.connect where
  named := h.named
  stopped hstopped := absurd hstopped.symm Bool.false_ne_true
  sent := by
    refine .inr ⟨[], ?_, by simp, fun hne ↦ absurd rfl hne⟩
    rw [← h.named]
    rfl
  answered := .inl rfl
  read := ⟨[], [], rfl, rfl, (absurd · Bool.false_ne_true), fun _ hreplies ↦ absurd rfl hreplies⟩
  color := ⟨(absurd · Bool.false_ne_true), fun _ ↦ rfl⟩

theorem leave (h : Sound username link) : Sound username link.leave where
  named := h.named
  stopped hstopped := ⟨rfl, (h.stopped hstopped).2⟩
  sent := h.sent
  answered := h.answered
  read := by
    obtain ⟨received, pending, htold, htoClient, -, -⟩ := h.read
    exact ⟨received, pending, htold, htoClient, (absurd · Bool.false_ne_true),
      (absurd · Bool.false_ne_true)⟩
  color := ⟨(absurd · Bool.false_ne_true), fun _ ↦ rfl⟩

theorem stop (h : Sound username link) : Sound username link.stop := by
  unfold Link.stop
  split
  · exact h
  · rename_i hconnected
    have hleft : link.isConnected = false := Bool.eq_false_iff.2 hconnected
    refine { h with stopped := fun _ ↦ ⟨hleft, rfl⟩, read := ?_ }
    -- The messages that the client does not read any more count as read.
    refine ⟨link.told, [], (List.append_nil _).symm, rfl, ?_, (absurd · hconnected)⟩
    intro hlogged
    obtain ⟨seat, hreplies, -⟩ := h.color.1 hlogged
    rw [hreplies]
    exact List.cons_ne_nil _ _

theorem close (h : Sound username link) : Sound username link.close := by
  refine { h with sent := ?_ }
  have hclosed : link.close.heard ++ link.close.toServer = link.heard := List.append_nil _
  rw [hclosed]
  rcases h.sent with hnothing | ⟨commands, hsent, hcommands, hanswered⟩
  · exact .inl (List.append_eq_nil_iff.1 hnothing).1
  rcases List.append_eq_cons_iff.1 hsent with ⟨hheard, -⟩ | ⟨heard, hheard, hrest⟩
  · exact .inl hheard
  · refine .inr ⟨heard, hheard, ?_, ?_⟩
    · intro command hmem
      exact hcommands command (hrest ▸ List.mem_append_left _ hmem)
    · intro hne
      exact hanswered fun hnil ↦ hne (List.append_eq_nil_iff.1 (hrest ▸ hnil)).1

/-- Messages that do not answer a login can always be sent, an answer only once. -/
theorem deliver (h : Sound username link) {messages : List ServerMessage}
    (hreplies : loginReplies messages = [] ∨ link.heard ≠ [] ∧ loginReplies link.told = [] ∧
      ∃ seat, loginReplies messages = [seatLabel seat]) :
    Sound username (link.deliver messages) := by
  unfold Link.deliver
  split
  · have htold := loginReplies_append link.told messages
    have hkept : loginReplies link.told ≠ [] → loginReplies (link.told ++ messages) ≠ [] := by
      intro hne hnil
      rw [htold] at hnil
      exact hne (List.append_eq_nil_iff.1 hnil).1
    constructor
    case named => exact h.named
    case stopped =>
      intro hstopped
      obtain ⟨hleft, hnothing⟩ := h.stopped hstopped
      refine ⟨hleft, ?_⟩
      have hlistening : link.isListening = false := hstopped
      rw [hlistening, if_neg Bool.false_ne_true]
      exact hnothing
    case sent =>
      rcases h.sent with hnothing | ⟨commands, hsent, hcommands, hanswered⟩
      · exact .inl hnothing
      · exact .inr ⟨commands, hsent, hcommands, fun hne ↦ hkept (hanswered hne)⟩
    case answered =>
      rcases hreplies with hnone | ⟨hheard, hbefore, seat, hseat⟩
      · rw [htold, hnone, List.append_nil]
        exact h.answered
      · exact .inr ⟨hheard, seat, by rw [htold, hbefore, hseat, List.nil_append]⟩
    case read =>
      obtain ⟨received, pending, hsplit, htoClient, hread, hknows⟩ := h.read
      cases hlistening : link.isListening with
      | true =>
        refine ⟨received, pending ++ messages, ?_, ?_, hread, hknows⟩
        · rw [hsplit, List.append_assoc]
        · rw [if_pos rfl, htoClient, List.map_append]
      | false =>
        obtain ⟨hleft, hnothing⟩ := h.stopped hlistening
        refine ⟨link.told ++ messages, [], (List.append_nil _).symm, hnothing, ?_, ?_⟩
        · intro hlogged
          obtain ⟨seat, hseat, -⟩ := h.color.1 hlogged
          exact hkept (by rw [hseat]; exact List.cons_ne_nil _ _)
        · intro hconnected
          exact absurd (hleft.symm.trans hconnected) Bool.false_ne_true
    case color =>
      refine ⟨fun hlogged ↦ ?_, h.color.2⟩
      obtain ⟨seat, hseat, hcolor⟩ := h.color.1 hlogged
      rcases hreplies with hnone | ⟨-, hbefore, -⟩
      · exact ⟨seat, by rw [htold, hnone, List.append_nil, hseat], hcolor⟩
      · exact absurd (hbefore.symm.trans hseat).symm (List.cons_ne_nil _ _)
  · exact h

theorem arrive (h : Sound username link) : Sound username link.arrive := by
  unfold Link.arrive
  split
  · exact h
  rename_i json rest hnext
  have hlistening : link.isListening = true := by
    by_contra hstopped
    have hnothing := (h.stopped (Bool.eq_false_iff.2 hstopped)).2
    exact absurd (hnext.symm.trans hnothing) (List.cons_ne_nil _ _)
  obtain ⟨received, pending, hsplit, htoClient, hread, hknows⟩ := h.read
  rw [hnext] at htoClient
  obtain ⟨message, later, rfl, rfl, rfl⟩ := List.map_eq_cons_iff.1 htoClient.symm
  have htold : link.told = (received ++ [message]) ++ later := by
    rw [hsplit, List.append_assoc, List.singleton_append]
  by_cases hlogin : NoReply message
  · have hsame : loginReplies (received ++ [message]) = loginReplies received := by
      have hnone : loginReplies [message] = [] :=
        loginReplies_eq_nil fun other hmem ↦ List.mem_singleton.1 hmem ▸ hlogin
      rw [loginReplies_append, hnone, List.append_nil]
    rw [LocalWsClient.handleMessage_of_ne hlogin]
    refine { h with
      stopped := fun hstopped ↦ absurd (hstopped.symm.trans hlistening) Bool.false_ne_true
      read := ⟨received ++ [message], later, htold, rfl, ?_, ?_⟩ }
    · rw [hsame]
      exact hread
    · rw [hsame]
      exact hknows
  -- The answer to the login is the only one, so that the client has read none before it.
  obtain ⟨label, rfl⟩ : ∃ label, message = .loginOk label := by simpa [NoReply] using hlogin
  have hreplies : loginReplies link.told =
      loginReplies received ++ label :: loginReplies later := by
    rw [hsplit, loginReplies_append]
    rfl
  obtain ⟨seat, hseat⟩ : ∃ seat, loginReplies link.told = [seatLabel seat] := by
    rcases h.answered with hnone | ⟨-, hseat⟩
    · rw [hreplies] at hnone
      exact absurd (List.append_eq_nil_iff.1 hnone).2 (List.cons_ne_nil _ _)
    · exact hseat
  obtain ⟨hbefore, rfl⟩ : loginReplies received = [] ∧ label = seatLabel seat := by
    rw [hreplies] at hseat
    rcases List.append_eq_singleton_iff.1 hseat with ⟨hbefore, hlabel⟩ | ⟨-, hlabel⟩
    · exact ⟨hbefore, (List.cons.inj hlabel).1⟩
    · exact absurd hlabel (List.cons_ne_nil _ _)
  have hlogged : link.client.loggedIn = false := by
    by_contra hlogged
    exact hread (Bool.not_eq_false _ ▸ hlogged) hbefore
  have hnow : loginReplies (received ++ [.loginOk (seatLabel seat)]) ≠ [] := by
    rw [loginReplies_append]
    exact fun hnil ↦ List.cons_ne_nil _ _ (List.append_eq_nil_iff.1 hnil).2
  rw [LocalWsClient.handleMessage_loginOk]
  refine { h with
    stopped := fun hstopped ↦ absurd (hstopped.symm.trans hlistening) Bool.false_ne_true
    read := ⟨_, later, htold, rfl, fun _ ↦ hnow, fun _ _ ↦ rfl⟩
    color := ⟨fun _ ↦ ⟨seat, hseat, ?_⟩, fun hnot ↦ absurd hnot.symm Bool.false_ne_true⟩ }
  rw [h.color.2 hlogged, Option.or_none]

theorem request (h : Sound username link) (request : LocalWsClient.Request) :
    Sound username (link.request request) := by
  unfold Link.request
  split
  · cases hlogged : link.client.loggedIn with
    | false =>
      have hnothing : (link.client.send request).2 = [] := by
        apply List.eq_nil_iff_forall_not_mem.2
        intro text hmem
        have hin := (LocalWsClient.of_mem_send hmem).1
        exact absurd (hlogged.symm.trans hin) Bool.false_ne_true
      rw [hnothing, List.append_nil]
      exact h
    | true =>
      obtain ⟨seat, hseat, -⟩ := h.color.1 hlogged
      have hanswered : loginReplies link.told ≠ [] := hseat ▸ List.cons_ne_nil _ _
      have hheard : link.heard ≠ [] := by
        rcases h.answered with hnone | ⟨hheard, -⟩
        · exact absurd hnone hanswered
        · exact hheard
      refine { h with sent := .inr ?_ }
      rcases h.sent with hnothing | ⟨commands, hsent, hcommands, -⟩
      · exact absurd (List.append_eq_nil_iff.1 hnothing).1 hheard
      refine ⟨commands ++ (link.client.send request).2, ?_, ?_, fun _ ↦ hanswered⟩
      · rw [← List.append_assoc, hsent, List.cons_append]
      · intro command hmem
        rcases List.mem_append.1 hmem with hold | hnew
        · exact hcommands command hold
        · exact (LocalWsClient.of_mem_send hnew).2
  · exact h

section Hear

variable {text : StdString} {rest : List StdString}

theorem hear (h : Sound username link) (hnext : link.toServer = text :: rest) :
    Sound username (link.hear text rest) := by
  have hsame : (link.hear text rest).heard ++ (link.hear text rest).toServer =
      link.heard ++ link.toServer := by
    rw [hnext]
    exact List.append_assoc ..
  refine { h with sent := ?_, answered := ?_ }
  · rw [hsame]
    exact h.sent
  · rcases h.answered with hnone | ⟨-, hseat⟩
    · exact .inl hnone
    · exact .inr ⟨List.append_ne_nil_of_right_ne_nil _ (List.cons_ne_nil _ _), hseat⟩

/-- After the first text the server reads no login. -/
theorem isNoLogin_of_heard (h : Sound username link) (hnext : link.toServer = text :: rest)
    (hheard : link.heard ≠ []) : LocalWsClient.IsNoLogin text := by
  rcases h.sent with hnothing | ⟨commands, hsent, hcommands, -⟩
  · exact absurd (List.append_eq_nil_iff.1 hnothing).1 hheard
  obtain ⟨first, heard, hfirst⟩ := List.exists_cons_of_ne_nil hheard
  rw [hfirst, hnext, List.cons_append] at hsent
  apply hcommands text
  rw [← (List.cons.inj hsent).2]
  exact List.mem_append_right _ List.mem_cons_self

end Hear

end Sound

end Link

/-! ## All connections -/

namespace Handshake

/-- Both ends of every connection agree. -/
def Sound (username : ConnectionId → StdString) (system : Handshake) : Prop :=
  ∀ connectionId, (system.links connectionId).Sound (username connectionId)

variable {username : ConnectionId → StdString} {system : Handshake}

theorem links_setLink (system : Handshake) (connectionId : ConnectionId) (link : Link)
    (other : ConnectionId) :
    (system.setLink connectionId link).links other =
      if other = connectionId then link else system.links other :=
  Function.update_apply ..

theorem Sound.setLink (h : system.Sound username) {connectionId : ConnectionId} {link : Link}
    (hlink : link.Sound (username connectionId)) :
    (system.setLink connectionId link).Sound username := by
  intro other
  rw [links_setLink]
  split
  · rename_i heq
    rw [heq]
    exact hlink
  · exact h other

theorem Sound.route (h : system.Sound username) {result : List Output × Host}
    (hreplies : ∀ connectionId,
      loginReplies (messagesFor connectionId result.1) = [] ∨
        (system.links connectionId).heard ≠ [] ∧
          loginReplies (system.links connectionId).told = [] ∧
          ∃ seat, loginReplies (messagesFor connectionId result.1) = [seatLabel seat]) :
    (system.route result).Sound username :=
  fun connectionId ↦ (h connectionId).deliver (hreplies connectionId)

theorem Sound.received (h : system.Sound username) {connectionId : ConnectionId} {text : StdString}
    {rest : List StdString} (hnext : (system.links connectionId).toServer = text :: rest)
    (record : Option ℤ) (now : TimePoint) :
    ((system.setLink connectionId ((system.links connectionId).hear text rest)).route
      (system.host.handleClientMessage connectionId text record now)).Sound username := by
  have hlink := h connectionId
  refine (h.setLink (hlink.hear hnext)).route fun other ↦ ?_
  by_cases hother : other = connectionId
  · subst hother
    by_cases hheard : (system.links other).heard = []
    · rcases loginReplies_sender system.host other record now with hnone | hseat
      · exact .inl hnone
      · right
        rw [links_setLink, if_pos rfl]
        refine ⟨List.append_ne_nil_of_right_ne_nil _ (List.cons_ne_nil _ _), ?_, hseat⟩
        rcases hlink.answered with hnone | ⟨hne, -⟩
        · exact hnone
        · exact absurd hheard hne
    · have hno := hlink.isNoLogin_of_heard hnext hheard
      exact .inl (loginReplies_of_isNoLogin system.host other record now hno other)
  · exact .inl (loginReplies_other system.host connectionId record now hother)

/-- When the server reads a text of one connection, it answers no login on another one. -/
theorem loginReplies_received (system : Handshake) {sender connectionId : ConnectionId}
    (hne : sender ≠ connectionId) (record : Option ℤ) (now : TimePoint) :
    loginReplies ((system.step (.received sender record now)).links connectionId).told =
      loginReplies (system.links connectionId).told := by
  rw [Handshake.step]
  split
  · rfl
  · change loginReplies (((system.setLink sender _).links connectionId).deliver _).told = _
    rw [links_setLink, if_neg hne.symm, Link.deliver]
    split
    · rw [loginReplies_append, loginReplies_other system.host sender record now hne.symm,
        List.append_nil]
    · rfl

theorem Sound.step (h : system.Sound username) (op : Op) : (system.step op).Sound username := by
  cases op with
  | connect connectionId =>
    rw [Handshake.step]
    split
    · exact h
    · exact (h.setLink (h connectionId).connect).route fun _ ↦ .inl rfl
  | received connectionId record now =>
    rw [Handshake.step]
    split
    · exact h
    · rename_i text rest hnext
      exact h.received hnext record now
  | arrived connectionId => exact h.setLink (h connectionId).arrive
  | request connectionId request => exact h.setLink ((h connectionId).request request)
  | leave connectionId => exact h.setLink (h connectionId).leave
  | stop connectionId => exact h.setLink (h connectionId).stop
  | closed connectionId now =>
    rw [Handshake.step]
    split
    · refine (h.setLink (h connectionId).close).route fun other ↦ .inl ?_
      exact loginReplies_of_ordinary
        (system.host.server.allSent_handleDisconnect connectionId now) other
    · exact h
  | main op => exact h.route fun _ ↦ .inl (loginReplies_performMain system.host op _)

/-- Whoever logs in to a new host is told so. -/
example :
    let host := Host.start (.initial 8080) {} { board := Io.setupStandardBoard }
    let system := (start host fun _ ↦ "Ann".toList).run [.connect 1, .received 1 none 0, .arrived 1]
    (system.links 1).client.loggedIn = true ∧ (system.links 1).heard.length = 1 := by
  decide

end Handshake

end KongFuChess.App
