import KongFuChess.App.Ratings
import KongFuChess.Engine.EventPairing
import KongFuChess.Input.Session
import KongFuChess.Lobby.ShellLobby
import KongFuChess.Network.ClientGameSync
import KongFuChess.Server.Host
import KongFuChess.View.DisconnectOverlay

/-!
# The game loop of the host

The program of the host runs the server and plays itself. Its main thread goes through the
statements of the game loop, frame by frame, while the threads of the server answer the connections
and the thread of its own client receives what the server sends to it, at any moment in between. A
statement of the loop is one step here, and so is the work on one message or on one command.

The engine publishes on the bus of the server. Every event is broadcast to the clients, and at the
end of the game the application writes the ratings to the user store.
-/

namespace KongFuChess.App

open Model Engine Events Network Session Matchmaking Input View Db Elo

/-! ## The messages of the server -/

/-- The texts that have been received and not been read yet. -/
structure ClientMessageQueue where
  pending : List StdString := []
deriving DecidableEq, Repr

namespace ClientMessageQueue

def push (queue : ClientMessageQueue) (json : StdString) : ClientMessageQueue :=
  { queue with pending := queue.pending ++ [json] }

def drain (queue : ClientMessageQueue) : List StdString × ClientMessageQueue := (queue.pending, {})

end ClientMessageQueue

def applyGameEndedMessage (json : StdString) (engine : GameEngine) : GameEngine :=
  match parseServerGameEvent json with
  | some (.gameEnded ended) =>
    if engine.isGameOver then engine else engine.applyRemoteGameEnded ended.winner
  | _ => engine

/-- The body of the loop of `processServerMessages`. -/
def processServerMessage (isServerHost : Bool) (json : StdString) (now : TimePoint)
    (engine : GameEngine) (overlay : DisconnectOverlayState) :
    GameEngine × DisconnectOverlayState :=
  match parseServerMessageType json with
  | .gameEnded => (applyGameEndedMessage json engine, overlay.applyMessage json now)
  | .playerDisconnected | .playerReconnected => (engine, overlay.applyMessage json now)
  | _ =>
    if !isServerHost then ((ClientGameSync.applyMessage json engine).2, overlay)
    else (engine, overlay)

/-! ## The window -/

inductive MouseEvent
  | leftButton (x y : ℤ)
  | rightButton (x y : ℤ)
deriving DecidableEq, Repr

def onPlayerMouse (playerColor : Color) (state : Controller × GameEngine) :
    MouseEvent → Controller × GameEngine
  | .leftButton x y => state.1.handleClick state.2 x y (some playerColor)
  | .rightButton x y => state.1.handleJump state.2 x y (some playerColor)

/-! ## The program of the host -/

def kFrameMs : ℤ := 16

/-- The statement of the game loop that is next. The messages are drained once in a frame and once
more after the loop. -/
inductive Stage
  | condition
  | queueTick
  | graceTick
  | drainMessages
  | messages
  | drainCommands
  | commands
  | countdown
  | advance
  | window
  | drainLast
  | lastMessages
  | finished
deriving DecidableEq, Repr

structure HostedGame (σ : Type*) where
  host : Host
  store : UserStore σ
  matchInfo : MatchInfo
  controller : Controller
  messageQueue : ClientMessageQueue := {}
  /-- The messages that the loop has drained and not processed yet. -/
  pendingMessages : List StdString := []
  disconnectOverlay : DisconnectOverlayState := {}
  /-- The connection of the host's own client. -/
  connectionId : ConnectionId
  /-- The texts on the way to the host's own client. -/
  arriving : List StdString := []
  running : Bool := true
  stage : Stage := .condition

/-- What a statement of the loop reads from outside: the clock, the order in which a hash table is
traversed, and the window. -/
structure FrameInput where
  now : TimePoint := 0
  order : List StdString := []
  mouse : List MouseEvent := []
  escape : Bool := false
deriving DecidableEq, Repr

inductive GameOp
  | opened (connectionId : ConnectionId)
  | received (connectionId : ConnectionId) (text : StdString) (now : TimePoint)
  | closed (connectionId : ConnectionId) (now : TimePoint)
  | arrived
  | main (input : FrameInput)
deriving DecidableEq, Repr

/-- The events published on the bus between two states of the engine. -/
def publishedSince (before after : GameEngine) : List GameEvent :=
  (after.eventBus.getD []).drop (before.eventBus.getD []).length

namespace HostedGame

variable {σ : Type*} (sqlite : Sqlite σ) (double : Doubles)

/-- The handler of the application for the end of the game, and the way to the own client. -/
def listen (game : HostedGame σ) : Output → HostedGame σ
  | .published (.gameEnded ended) =>
    { game with
      store := rateGame sqlite double game.store game.matchInfo.whiteUser game.matchInfo.blackUser
        ended.winner }
  | .published _ => game
  | .sent connectionId message =>
    if connectionId = game.connectionId then
      { game with arriving := game.arriving ++ [message.text] }
    else game

/-- The host does something; what its engine publishes is broadcast. -/
def performHost (game : HostedGame σ) (op : Host.Op) : List Output × HostedGame σ :=
  let (served, host) := game.host.perform op
  let outputs := served ++
    (publishedSince game.host.gameEngine host.gameEngine).flatMap host.server.publish
  (outputs, outputs.foldl (listen sqlite double) { game with host := host })

/-- The rating that the user store holds for a player who joins the queue. Nobody else is looked
up. -/
def recordFor (game : HostedGame σ) (connectionId : ConnectionId) (text : StdString) :
    Option ℤ × UserStore σ :=
  match parseClientMessage text, game.host.server.joinGuard connectionId with
  | some .joinQueue, .ok username =>
    let (record, store) := game.store.find sqlite username
    (record.map (·.elo), store)
  | _, _ => (none, game.store)

def goTo (game : HostedGame σ) (stage : Stage) : HostedGame σ := { game with stage := stage }

def processMessage (game : HostedGame σ) (json : StdString) (rest : List StdString)
    (now : TimePoint) : HostedGame σ :=
  let (engine, overlay) :=
    processServerMessage true json now game.host.gameEngine game.disconnectOverlay
  { game with
    host := { game.host with gameEngine := engine }
    disconnectOverlay := overlay
    pendingMessages := rest }

def drainMessages (game : HostedGame σ) : HostedGame σ :=
  let (pending, messageQueue) := game.messageQueue.drain
  { game with pendingMessages := pending, messageQueue := messageQueue }

/-- The mouse moves the controller, and the engine as far as the controller does so itself. -/
def handleWindow (game : HostedGame σ) (input : FrameInput) : HostedGame σ :=
  let (controller, engine) :=
    input.mouse.foldl (onPlayerMouse game.matchInfo.color) (game.controller, game.host.gameEngine)
  { game with
    controller := controller
    host := { game.host with gameEngine := engine }
    running := game.running && !input.escape }

/-- The next statement of the main thread. -/
def performMain (game : HostedGame σ) (input : FrameInput) : List Output × HostedGame σ :=
  match game.stage with
  | .condition =>
    ([], game.goTo (if game.running && !game.host.gameEngine.isGameOver then .queueTick
      else .drainLast))
  | .queueTick => (game.goTo .graceTick).performHost sqlite double (.queueTick input.now)
  | .graceTick =>
    (game.goTo .drainMessages).performHost sqlite double (.graceTick input.now input.order)
  | .drainMessages => ([], game.drainMessages.goTo .messages)
  | .messages =>
    match game.pendingMessages with
    | [] => ([], game.goTo .drainCommands)
    | json :: rest => ([], game.processMessage json rest input.now)
  | .drainCommands => (game.goTo .commands).performHost sqlite double .drain
  | .commands =>
    if game.host.drained = [] then ([], game.goTo .countdown)
    else game.performHost sqlite double .processNext
  | .countdown =>
    ([],
      { game.goTo .advance with
        disconnectOverlay := game.disconnectOverlay.updateCountdown input.now })
  | .advance => (game.goTo .window).performHost sqlite double (.advanceTime kFrameMs)
  | .window => ([], (game.handleWindow input).goTo .condition)
  | .drainLast => ([], game.drainMessages.goTo .lastMessages)
  | .lastMessages =>
    match game.pendingMessages with
    | [] => ([], game.goTo .finished)
    | json :: rest => ([], game.processMessage json rest input.now)
  | .finished => ([], game)

/-- The transport delivers nothing from a connection that is not open. -/
def perform (game : HostedGame σ) : GameOp → List Output × HostedGame σ
  | .opened connectionId => game.performHost sqlite double (.opened connectionId)
  | .received connectionId text now =>
    if connectionId ∈ game.host.server.clients then
      let (record, store) := game.recordFor sqlite connectionId text
      { game with store := store }.performHost sqlite double
        (.received connectionId text record now)
    else ([], game)
  | .closed connectionId now =>
    if connectionId ∈ game.host.server.clients then
      game.performHost sqlite double (.closed connectionId now)
    else ([], game)
  | .arrived =>
    match game.arriving with
    | [] => ([], game)
    | json :: rest =>
      ([], { game with arriving := rest, messageQueue := game.messageQueue.push json })
  | .main input => game.performMain sqlite double input

def outputs (game : HostedGame σ) (op : GameOp) : List Output := (game.perform sqlite double op).1

def step (game : HostedGame σ) (op : GameOp) : HostedGame σ := (game.perform sqlite double op).2

abbrev run (game : HostedGame σ) (ops : List GameOp) : HostedGame σ :=
  Transition.run (step sqlite double) game ops

/-- The client of the host is logged in during the whole loop. -/
def connection : Connection :=
  { isServerHost := true
    sendMove := fun fromPos toPos ↦ !(fromPos.row < 0 || toPos.row < 0)
    sendJump := fun square ↦ !(square.row < 0) }

/-- The beginning of a match. The server has run before; messages may be on their way. -/
def start (server : WsServer) (commandQueue : CommandQueue) (engine : GameEngine)
    (store : UserStore σ) (matchInfo : MatchInfo) (connectionId : ConnectionId)
    (arriving : List StdString) : HostedGame σ :=
  { host := Host.start server commandQueue engine.attachBus
    store := store
    matchInfo := matchInfo
    controller := { dispatch := some connection }
    connectionId := connectionId
    arriving := arriving }

end HostedGame

end KongFuChess.App
