import KongFuChess.Network.NetworkInput
import KongFuChess.Server.Run

/-!
# The host of a game

The player whose program runs the server also runs the engine that decides the game. The messages
of the clients arrive on threads of the server: logins and queue requests are answered there, moves
and jumps are queued. The game loop drains the queue once in a frame and performs the commands one
by one, so that the session can change between any two of these steps.

A command is checked twice, and the first check says nothing about the moment of the second. What a
run of the host guarantees rests on the second one alone.
-/

namespace KongFuChess.Network

open Model Realtime Events Engine Session Matchmaking

structure CommandQueue where
  pending : List QueuedCommand := []
deriving DecidableEq, Repr

namespace CommandQueue

def push (queue : CommandQueue) (command : QueuedCommand) : CommandQueue :=
  { queue with pending := queue.pending ++ [command] }

def drain (queue : CommandQueue) : List QueuedCommand × CommandQueue := (queue.pending, {})

end CommandQueue

structure Host where
  server : WsServer
  commandQueue : CommandQueue := {}
  /-- The commands that the game loop has drained and not performed yet. -/
  drained : List QueuedCommand := []
  gameEngine : GameEngine

namespace Host

/-- A result that the engine has not come to itself. -/
def applyGameEnded (host : Host) (winner : Color) : Host :=
  { host with
    gameEngine :=
      if host.gameEngine.isGameOver then host.gameEngine
      else host.gameEngine.applyRemoteGameEnded winner }

/-- The application listens for the end of the game on the bus of the server. -/
def listen (host : Host) : Output → Host
  | .published (.gameEnded event) => host.applyGameEnded event.winner
  | _ => host

/-- The host after the server has done something. -/
def serve (host : Host) (result : List Output × WsServer) : List Output × Host :=
  (result.1, result.1.foldl listen { host with server := result.2 })

/-- A text message of a client. `record` is the rating that the user store holds for its player. -/
def handleClientMessage (host : Host) (connectionId : ConnectionId) (text : StdString)
    (record : Option ℤ) (now : TimePoint) : List Output × Host :=
  match parseClientMessage text with
  | none => ([.sent connectionId (.error "Invalid message".toList)], host)
  | some command =>
    match command with
    | .login login => host.serve (host.server.handleLogin connectionId login.username)
    | .joinQueue => host.serve (host.server.handleJoinQueue connectionId record now)
    | .leaveQueue => host.serve (host.server.handleLeaveQueue connectionId)
    | .move _ | .jump _ =>
      if (host.server.session.colorFor connectionId).isNone then
        ([.sent connectionId (.error "Not authenticated".toList)], host)
      else
        ([], { host with
          commandQueue := host.commandQueue.push ⟨connectionId, command⟩ })

/-- The game loop drains the queue when it has performed all commands of the frame before. -/
def drain (host : Host) : Host :=
  if host.drained = [] then
    let (drained, commandQueue) := host.commandQueue.drain
    { host with drained := drained, commandQueue := commandQueue }
  else host

def input (host : Host) : NetworkInputHandler :=
  { session := host.server.session, gameEngine := host.gameEngine }

/-- The game loop performs the next of the drained commands. -/
def processNext (host : Host) : Host :=
  match host.drained with
  | [] => host
  | queued :: rest =>
    { host with drained := rest, gameEngine := host.input.processNetworkCommand queued }

inductive Op
  | opened (connectionId : ConnectionId)
  | received (connectionId : ConnectionId) (text : StdString) (record : Option ℤ) (now : TimePoint)
  | closed (connectionId : ConnectionId) (now : TimePoint)
  | queueTick (now : TimePoint)
  | graceTick (now : TimePoint) (order : List StdString)
  | gameEnded (winner : Color)
  | drain
  | processNext
  | advanceTime (ms : ℤ)
deriving DecidableEq, Repr

def perform (host : Host) : Op → List Output × Host
  | .opened connectionId => host.serve ([], host.server.registerClient connectionId)
  | .received connectionId text record now => host.handleClientMessage connectionId text record now
  | .closed connectionId now => host.serve (host.server.handleDisconnect connectionId now)
  | .queueTick now => host.serve (host.server.tickQueueTimeouts now)
  | .graceTick now order => host.serve (host.server.tickGrace now order)
  | .gameEnded winner => ([], host.applyGameEnded winner)
  | .drain => ([], host.drain)
  | .processNext => ([], host.processNext)
  | .advanceTime ms => ([], { host with gameEngine := host.gameEngine.advanceTime ms })

def step (host : Host) (op : Op) : Host := (host.perform op).2

/-- A host whose engine has just been reset. The server has run before, so that commands may already
be waiting. -/
def start (server : WsServer) (commandQueue : CommandQueue) (engine : GameEngine) : Host :=
  { server := server, commandQueue := commandQueue, gameEngine := engine.reset }

abbrev run (host : Host) (ops : List Op) : Host := Transition.run step host ops

/-! ## Only commands start motions -/

/-- The engine goes on without a new motion or premove. -/
structure Continues (before after : GameEngine) : Prop where
  activeMotions : ∀ motion ∈ after.activeMotions, motion ∈ before.activeMotions
  premoves : after.premoves = before.premoves

namespace Continues

theorem refl (engine : GameEngine) : Continues engine engine := ⟨fun _ hmem ↦ hmem, rfl⟩

theorem trans {first second third : GameEngine} (h : Continues first second)
    (h' : Continues second third) : Continues first third :=
  ⟨fun motion hmem ↦ h.activeMotions motion (h'.activeMotions motion hmem),
    h'.premoves.trans h.premoves⟩

theorem advanceTime {engine : GameEngine} (hpremoves : ∀ source, engine.premoves source = none)
    (ms : ℤ) : Continues engine (engine.advanceTime ms) := by
  refine ⟨?_, GameEngine.premoves_advanceTime_of_none hpremoves ms⟩
  intro motion hmem
  rw [GameEngine.activeMotions_advanceTime_of_none hpremoves] at hmem
  exact List.mem_of_mem_filter hmem

end Continues

theorem continues_applyGameEnded (host : Host) (winner : Color) :
    Continues host.gameEngine (host.applyGameEnded winner).gameEngine := by
  unfold applyGameEnded
  split
  · exact .refl _
  · exact ⟨fun _ hmem ↦ hmem, rfl⟩

theorem continues_listen (host : Host) (output : Output) :
    Continues host.gameEngine (host.listen output).gameEngine := by
  unfold listen
  split
  · exact host.continues_applyGameEnded _
  · exact .refl _

/-- Nothing that the server does starts a motion. -/
theorem continues_serve (host : Host) (result : List Output × WsServer) :
    Continues host.gameEngine (host.serve result).2.gameEngine := by
  have hserved : Continues host.gameEngine ({ host with server := result.2 } : Host).gameEngine :=
    .refl _
  exact Transition.run_invariant listen
    (I := fun later : Host ↦ Continues host.gameEngine later.gameEngine)
    (fun later output hlater ↦ hlater.trans (later.continues_listen output)) hserved result.1

theorem continues_handleClientMessage (host : Host) (connectionId : ConnectionId)
    (text : StdString) (record : Option ℤ) (now : TimePoint) :
    Continues host.gameEngine
      (host.handleClientMessage connectionId text record now).2.gameEngine := by
  unfold handleClientMessage
  split
  · exact .refl _
  · split
    · exact host.continues_serve _
    · exact host.continues_serve _
    · exact host.continues_serve _
    · split <;> exact .refl _
    · split <;> exact .refl _

/-- In a step the engine continues, or the next drained command starts a motion. -/
theorem step_cases (host : Host) (hpremoves : ∀ source, host.gameEngine.premoves source = none)
    (op : Op) :
    Continues host.gameEngine (host.step op).gameEngine ∨
      op = .processNext ∧ ∃ queued rest motion event, host.drained = queued :: rest ∧
        (host.step op).gameEngine = host.gameEngine.start motion event ∧
        host.input.Starts queued motion := by
  cases op with
  | opened connectionId => exact .inl (host.continues_serve _)
  | received connectionId text record now =>
    exact .inl (host.continues_handleClientMessage connectionId text record now)
  | closed connectionId now => exact .inl (host.continues_serve _)
  | queueTick now => exact .inl (host.continues_serve _)
  | graceTick now order => exact .inl (host.continues_serve _)
  | gameEnded winner => exact .inl (host.continues_applyGameEnded winner)
  | drain =>
    left
    rw [step, perform, Host.drain]
    split <;> exact .refl _
  | processNext =>
    rw [step, perform, Host.processNext]
    cases hdrained : host.drained with
    | nil => exact .inl (.refl _)
    | cons queued rest =>
      rcases host.input.processNetworkCommand_cases queued with heq | ⟨motion, event, heq, hstarts⟩
      · left
        simp only [heq]
        exact .refl _
      · exact .inr ⟨rfl, queued, rest, motion, event, rfl, heq, hstarts⟩
  | advanceTime ms => exact .inl (.advanceTime hpremoves ms)

/-- Nobody queues premoves on the host's engine. -/
theorem premoves_run (server : WsServer) (commandQueue : CommandQueue) (engine : GameEngine)
    (ops : List Op) (source : Position) :
    ((start server commandQueue engine).run ops).gameEngine.premoves source = none := by
  refine Transition.run_invariant step
    (I := fun host ↦ ∀ source, host.gameEngine.premoves source = none) ?_ (fun _ ↦ rfl) ops source
  intro host op hpremoves source
  rcases host.step_cases hpremoves op with hcontinues | ⟨-, _, _, motion, event, -, heq, -⟩
  · rw [hcontinues.premoves]
    exact hpremoves source
  · rw [heq, GameEngine.premoves_start]
    exact hpremoves source

/-- The motion is started by the given command, which is the next one to be performed, and whose
connection holds the colour of the piece that the motion moves. -/
structure StartedBy (host : Host) (queued : QueuedCommand) (motion : Motion) : Prop where
  next : host.drained.head? = some queued
  fresh : motion ∉ host.gameEngine.activeMotions
  started : motion ∈ (host.step .processNext).gameEngine.activeMotions
  source : queued.command.squares.head?.map Io.algebraicToPosition = some motion.source
  holds : host.server.session.colorFor queued.connectionId =
    some (host.gameEngine.board.cell motion.source).color
  piece : (host.gameEngine.board.cell motion.source).Is motion.pieceType motion.pieceColor

theorem startedBy_of_step {host : Host} {op : Op}
    (hpremoves : ∀ source, host.gameEngine.premoves source = none) {motion : Motion}
    (hfresh : motion ∉ host.gameEngine.activeMotions)
    (hstarted : motion ∈ (host.step op).gameEngine.activeMotions) :
    op = .processNext ∧ ∃ queued, host.StartedBy queued motion := by
  rcases host.step_cases hpremoves op with
    hcontinues | ⟨rfl, queued, _, new, _, hnext, heq, hstarts⟩
  · exact absurd (hcontinues.activeMotions motion hstarted) hfresh
  refine ⟨rfl, queued, ?_⟩
  have hmem := hstarted
  rw [heq, GameEngine.activeMotions_start, List.mem_append, or_iff_right hfresh,
    List.mem_singleton] at hmem
  subst hmem
  exact
    { next := by rw [hnext, List.head?_cons]
      fresh := hfresh
      started := hstarted
      source := hstarts.source
      holds := hstarts.controls.color
      piece := ⟨hstarts.controls.occupied, hstarts.type.symm, hstarts.color.symm⟩ }

/-- Players only command their own colour. Whenever a step of the host starts a motion, it performs
a command whose connection holds the colour of the piece at that moment, and every motion that is
under way was started so. A command from a connection without a colour, or with a text that names no
square of the board, leaves the engine as it is. -/
theorem motions_started_by_owner (server : WsServer) (commandQueue : CommandQueue)
    (engine : GameEngine) (ops : List Op) :
    (∀ op motion,
      motion ∈ (((start server commandQueue engine).run ops).step op).gameEngine.activeMotions →
      motion ∉ ((start server commandQueue engine).run ops).gameEngine.activeMotions →
      op = .processNext ∧
        ∃ queued, ((start server commandQueue engine).run ops).StartedBy queued motion) ∧
    (∀ motion ∈ ((start server commandQueue engine).run ops).gameEngine.activeMotions,
      ∃ past future queued, ops = past ++ .processNext :: future ∧
        ((start server commandQueue engine).run past).StartedBy queued motion) ∧
    ∀ queued, ((start server commandQueue engine).run ops).drained.head? = some queued →
      ((start server commandQueue engine).run ops).server.session.colorFor
            queued.connectionId = none ∨
        (∃ square ∈ queued.command.squares,
          ¬ NamesSquare ((start server commandQueue engine).run ops).gameEngine.board square) →
      (((start server commandQueue engine).run ops).step .processNext).gameEngine =
        ((start server commandQueue engine).run ops).gameEngine := by
  have hpremoves := premoves_run server commandQueue engine
  refine ⟨?_, ?_, ?_⟩
  · intro op motion hstarted hfresh
    exact startedBy_of_step (hpremoves ops) hfresh hstarted
  · intro motion hmem
    have hinitial : motion ∉ (start server commandQueue engine).gameEngine.activeMotions :=
      List.not_mem_nil
    obtain ⟨past, op, future, hsplit, hfresh, hstarted⟩ :=
      Transition.exists_step (P := fun host : Host ↦ motion ∈ host.gameEngine.activeMotions)
        hinitial hmem
    obtain ⟨rfl, queued, hstartedBy⟩ := startedBy_of_step (hpremoves past) hfresh hstarted
    exact ⟨past, future, queued, hsplit, hstartedBy⟩
  · intro queued hnext hrefused
    obtain ⟨rest, hdrained⟩ := List.head?_eq_some_iff.1 hnext
    rw [step, perform, processNext, hdrained]
    exact NetworkInputHandler.processNetworkCommand_of_refused _ queued hrefused

end Host

end KongFuChess.Network
