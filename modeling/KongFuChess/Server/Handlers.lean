import KongFuChess.Network.LobbyMessages
import KongFuChess.Online.DisconnectManager
import KongFuChess.Online.SessionManager

/-!
# The handlers of the server

A handler returns what it sends and publishes, in this order, and the state it leaves behind. Every
event published on the bus is also broadcast to the registered clients. The rating that the user
store holds for a player is an input, and so is the time.
-/

namespace KongFuChess.Network

open Model Events Session Matchmaking

namespace DisconnectConfig

def kGraceMs : ℤ := 20000

def kGraceSeconds : ℤ := 20

end DisconnectConfig

inductive Output
  | sent (connectionId : ConnectionId) (message : ServerMessage)
  | published (event : GameEvent)
deriving DecidableEq, Repr

structure WsServer where
  session : SessionManager
  disconnectManager : DisconnectManager := {}
  matchmakingQueue : MatchmakingQueue := {}
  /-- The connections in the client registry. -/
  clients : List ConnectionId := []
  port : ℤ

namespace WsServer

/-! ## Sending -/

def sendToConnection (server : WsServer) (connectionId : ConnectionId) (message : ServerMessage) :
    List Output :=
  if connectionId ∈ server.clients then [.sent connectionId message] else []

def broadcast (server : WsServer) (message : ServerMessage) : List Output :=
  server.clients.map fun connectionId ↦ .sent connectionId message

/-- Publishing on the bus, to which the server subscribes. -/
def publish (server : WsServer) (event : GameEvent) : List Output :=
  .published event :: server.broadcast (.gameEvent event)

def registerClient (server : WsServer) (connectionId : ConnectionId) : WsServer :=
  { server with clients := server.clients.insert connectionId }

def removeClient (server : WsServer) (connectionId : ConnectionId) : WsServer :=
  { server with clients := server.clients.erase connectionId }

/-! ## Logging in -/

def authErrorMessage : AuthResult → StdString
  | .unknownUser => "Unknown username".toList
  | .slotFull => "Session full".toList
  | .alreadyConnected => "Username already connected".toList
  | .accepted => "Login accepted".toList

def handleLogin (server : WsServer) (connectionId : ConnectionId) (username : StdString) :
    List Output × WsServer :=
  if server.disconnectManager.isInGrace username then
    match server.session.reconnect connectionId username with
    | (.accepted, session) =>
      let server :=
        { server with
          session := session
          disconnectManager := server.disconnectManager.onReconnect username }
      (server.broadcast (.playerReconnected username) ++
        (match server.session.colorFor connectionId with
          | none => [.sent connectionId (.error "Reconnect failed".toList)]
          | some color =>
            [.sent connectionId (.loginOk (Protocol.colorLabel color)),
              .sent connectionId (.gameEvent (.gameStarted server.session.rosterSnapshot))]),
        server)
    | (result, session) =>
      ([.sent connectionId (.error (authErrorMessage result))],
        { server with session := session })
  else
    match server.session.authenticate connectionId username with
    | (.accepted, session) =>
      let label :=
        match session.colorFor connectionId with
        | none => "none".toList
        | some color => Protocol.colorLabel color
      ([.sent connectionId (.loginOk label)], { server with session := session })
    | (result, session) =>
      ([.sent connectionId (.error (authErrorMessage result))],
        { server with session := session })

/-! ## The queue -/

def kQueueTimeoutMessage : StdString := "No opponent found within 60 seconds.".toList

def notifyMatch (server : WsServer) (result : MatchResult) : List Output × WsServer :=
  let server := { server with session := server.session.beginMatch result }
  (server.sendToConnection result.white.connectionId
      (.matchFound "white".toList result.black.username server.port) ++
    server.sendToConnection result.black.connectionId
      (.matchFound "black".toList result.white.username server.port) ++
    server.publish (.gameStarted server.session.rosterSnapshot), server)

/-- The guards of a join: the error that it is refused with, or the username that it is for. -/
def joinGuard (server : WsServer) (connectionId : ConnectionId) : Except StdString StdString :=
  match server.session.usernameFor connectionId with
  | none => .error "Not authenticated".toList
  | some username =>
    if server.session.phase = .inGame ∧
        ((server.session.colorFor connectionId).isSome ∨ server.session.isReady = true) then
      .error "Already in game".toList
    else .ok username

/-- A player without a rating in the user store is taken for 1200. -/
def newEntry (connectionId : ConnectionId) (username : StdString) (record : Option ℤ)
    (now : TimePoint) : QueueEntry :=
  { connectionId := connectionId
    username := username
    elo := record.getD 1200
    enqueuedAt := now }

/-- `record` is the rating that the user store holds for the player. -/
def handleJoinQueue (server : WsServer) (connectionId : ConnectionId) (record : Option ℤ)
    (now : TimePoint) : List Output × WsServer :=
  match server.joinGuard connectionId with
  | .error message => ([.sent connectionId (.error message)], server)
  | .ok username =>
    let (result, matchmakingQueue) :=
      server.matchmakingQueue.enqueue (newEntry connectionId username record now)
    let server := { server with matchmakingQueue := matchmakingQueue }
    match result with
    | none => ([.sent connectionId .queueJoined], server)
    | some result =>
      let (outputs, server) := server.notifyMatch result
      (.sent connectionId .queueJoined :: outputs, server)

def removeFromQueue (server : WsServer) (connectionId : ConnectionId) : WsServer :=
  { server with matchmakingQueue := (server.matchmakingQueue.remove connectionId).2 }

def handleLeaveQueue (server : WsServer) (connectionId : ConnectionId) : List Output × WsServer :=
  match server.session.usernameFor connectionId with
  | none => ([.sent connectionId (.error "Not authenticated".toList)], server)
  | some _ => ([.sent connectionId .queueLeft], server.removeFromQueue connectionId)

def tickQueueTimeouts (server : WsServer) (now : TimePoint) : List Output × WsServer :=
  let (expired, matchmakingQueue) := server.matchmakingQueue.tick now
  let server := { server with matchmakingQueue := matchmakingQueue }
  (expired.flatMap fun entry ↦
    server.sendToConnection entry.connectionId (.queueTimeout kQueueTimeoutMessage), server)

/-! ## Disconnecting -/

/-- The seat that is lost with a connection, if the connection has one. -/
def lostSeat (server : WsServer) (connectionId : ConnectionId) : Option (StdString × Color) :=
  if server.session.phase = .inGame then
    match server.session.usernameFor connectionId, server.session.colorFor connectionId with
    | some username, some color => some (username, color)
    | _, _ => none
  else none

def handleDisconnect (server : WsServer) (connectionId : ConnectionId) (now : TimePoint) :
    List Output × WsServer :=
  match server.lostSeat connectionId with
  | some (username, color) =>
    let entry : DisconnectGraceEntry :=
      { username := username
        color := color
        connectionId := connectionId
        disconnectedAt := now
        graceUntil := now + milliseconds DisconnectConfig.kGraceMs }
    let server :=
      { server with
        disconnectManager := server.disconnectManager.onDisconnect entry
        session := server.session.reserveDisconnectedSlot connectionId username color }
    (server.broadcast (.playerDisconnected username (Protocol.colorLabel color)
        DisconnectConfig.kGraceSeconds),
      server.removeClient connectionId)
  | none =>
    let server := server.removeFromQueue connectionId
    ([], { server with session := server.session.disconnect connectionId }.removeClient
      connectionId)

def tickGrace (server : WsServer) (now : TimePoint) (order : List StdString) :
    List Output × WsServer :=
  match server.disconnectManager.tick now order with
  | (none, disconnectManager) => ([], { server with disconnectManager := disconnectManager })
  | (some winner, disconnectManager) =>
    let server := { server with disconnectManager := disconnectManager }
    (server.publish (.gameEnded ⟨winner⟩), { server with session := server.session.resetToLobby })

end WsServer

end KongFuChess.Network
