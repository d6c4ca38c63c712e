import KongFuChess.App.Verdict
import KongFuChess.Network.Retelling
import KongFuChess.Server.Sent

/-!
# What a client hears of a hosted game

The engine of a host is moved by the commands of the players, by the mouse of its owner, by the
clock and by results of the server, each from a different place of the program. Whatever they do,
the engine goes through a run of its own, so that all that holds for its runs holds in a match. And
a connection that stays open is sent every event of the board once, in the order in which the engine
publishes it, so that its reader can follow the game by these texts alone.
-/

namespace KongFuChess.Network

open Model Engine Events Session Matchmaking

/-! ## Texts about the board -/

/-- The start or the end of a motion. -/
def isBoardEvent : GameEvent → Bool
  | .completedMove _ | .jumpCapture _ | .moveStarted _ | .jumpStarted _ => true
  | .gameStarted _ | .gameEnded _ => false

def ServerMessage.isBoardMessage : ServerMessage → Bool
  | .gameEvent event => isBoardEvent event
  | _ => false

/-- The text about the board that a connection is sent. -/
def Output.boardTextFor (connectionId : ConnectionId) : Output → Option StdString
  | .sent receiver message =>
    if receiver = connectionId ∧ message.isBoardMessage = true then some message.text else none
  | .published _ => none

/-- The texts in which the events of the board are sent. -/
def boardTexts (events : List GameEvent) : List StdString :=
  (events.filter isBoardEvent).map serializeServerEvent

theorem boardTexts_append (first second : List GameEvent) :
    boardTexts (first ++ second) = boardTexts first ++ boardTexts second := by
  rw [boardTexts, List.filter_append, List.map_append]
  rfl

/-- The other events tell nothing about the board. -/
theorem foldl_filter_isBoardEvent (events : List GameEvent) (board : Board) :
    (events.filter isBoardEvent).foldl retell board = events.foldl retell board := by
  induction events generalizing board with
  | nil => rfl
  | cons event events ih =>
    rw [List.filter_cons]
    split
    · exact ih _
    · rename_i hother
      rw [ih, List.foldl_cons]
      cases event with
      | gameStarted | gameEnded => rfl
      | completedMove | jumpCapture | moveStarted | jumpStarted => exact absurd rfl hother

/-- Nothing about the board is sent. -/
def Unrelated (outputs : List Output) : Prop :=
  ∀ connectionId, ∀ output ∈ outputs, output.boardTextFor connectionId = none

namespace Unrelated

variable {first : List Output}

theorem nil : Unrelated [] := fun _ _ hmem ↦ absurd hmem List.not_mem_nil

theorem sent {message : ServerMessage} (h : message.isBoardMessage = false)
    (receiver : ConnectionId) : Unrelated [.sent receiver message] := by
  intro connectionId output hmem
  obtain rfl := List.mem_singleton.1 hmem
  simp [Output.boardTextFor, h]

theorem filterMap_eq_nil (h : Unrelated first) (connectionId : ConnectionId) :
    first.filterMap (Output.boardTextFor connectionId) = [] :=
  List.filterMap_eq_nil_iff.2 (h connectionId)

end Unrelated

namespace WsServer

variable (server : WsServer)

/-- The server on its own sends nothing about the board. -/
theorem unrelated_outputs (op : Op) : Unrelated (server.outputs op) := by
  intro connectionId output hmem
  cases output with
  | published event => rfl
  | sent receiver message =>
    have hmessage : message.isBoardMessage = false := by
      rcases server.allSent_outputs op receiver message hmem with hordinary | ⟨-, seat, rfl⟩
      · cases message with
        | gameEvent event =>
          cases event with
          | gameStarted | gameEnded => rfl
          | completedMove | jumpCapture | moveStarted | jumpStarted => exact hordinary.elim
        | error | loginOk | queueJoined | queueLeft | queueTimeout | matchFound
        | playerDisconnected | playerReconnected => rfl
      · rfl
    simp [Output.boardTextFor, hmessage]

/-- Only the connection itself leaves the registry. -/
theorem stays_step {connectionId : ConnectionId} (h : connectionId ∈ server.clients)
    {op : Op} (hop : ∀ now, op ≠ .closed connectionId now) :
    connectionId ∈ (server.step op).clients := by
  have heffect := server.step_effect op
  revert heffect
  generalize server.step op = later
  intro heffect
  have hother : ∀ other now,
      op = .closed other now → connectionId ∈ server.clients.erase other := by
    rintro other now rfl
    rw [List.mem_erase_of_ne]
    · exact h
    · rintro rfl
      exact hop now rfl
  cases heffect with
  | opened other => exact List.mem_insert_of_mem h
  | seatLost | closed => exact hother _ _ rfl
  | unchanged | loggedIn | seated | reconnected | queued | matched | leftQueue | queueTicked
  | expired => exact h

variable {server}

/-- An event that is published reaches every client once. -/
theorem boardTextFor_publish {connectionId : ConnectionId} (hmem : connectionId ∈ server.clients)
    (hclients : server.clients.Nodup) (event : GameEvent) :
    (server.publish event).filterMap (Output.boardTextFor connectionId) = boardTexts [event] := by
  have hheard : server.clients.filterMap (Output.boardTextFor connectionId ∘ fun client ↦
        Output.sent client (.gameEvent event)) =
      (server.clients.filter (· = connectionId)).flatMap fun _ ↦ boardTexts [event] := by
    induction server.clients with
    | nil => rfl
    | cons client clients ih =>
      rw [List.filterMap_cons, ih, List.filter_cons]
      by_cases hsame : client = connectionId
      · cases hboard : isBoardEvent event <;>
          simp [Output.boardTextFor, ServerMessage.isBoardMessage, ServerMessage.text, boardTexts,
            hsame, hboard]
      · simp [Output.boardTextFor, hsame]
  rw [publish, List.filterMap_cons, broadcast, List.filterMap_map, hheard, List.filter_eq,
    List.count_eq_one_of_mem hclients hmem]
  simp [Output.boardTextFor]

theorem boardTextFor_flatMap_publish {connectionId : ConnectionId}
    (hmem : connectionId ∈ server.clients) (hclients : server.clients.Nodup)
    (events : List GameEvent) :
    (events.flatMap server.publish).filterMap (Output.boardTextFor connectionId) =
      boardTexts events := by
  induction events with
  | nil => rfl
  | cons event events ih =>
    rw [List.flatMap_cons, List.filterMap_append, ih, boardTextFor_publish hmem hclients,
      ← boardTexts_append, List.singleton_append]

end WsServer

end KongFuChess.Network

namespace KongFuChess.Engine.GameEngine

open Model Realtime Events

/-! ## The engine goes through a run -/

/-- The engine has gone through a run. -/
def Ran (engine later : GameEngine) : Prop := ∃ ops, later = engine.run ops

namespace Ran

variable {engine later last : GameEngine}

theorem refl (engine : GameEngine) : engine.Ran engine := ⟨[], rfl⟩

theorem trans (h : engine.Ran later) (h' : later.Ran last) : engine.Ran last := by
  obtain ⟨ops, rfl⟩ := h
  obtain ⟨ops', rfl⟩ := h'
  exact ⟨ops ++ ops', (Transition.run_append step engine ops ops').symm⟩

theorem of_step (op : Op) : engine.Ran (engine.step op) := ⟨[op], rfl⟩

end Ran

/-- A run appends to what has been published. -/
theorem eventBus_step (engine : GameEngine) (op : Op) :
    ∃ added, (engine.step op).eventBus = engine.eventBus.map (· ++ added) := by
  have hunchanged : ∃ added : List GameEvent,
      engine.eventBus = engine.eventBus.map (· ++ added) := ⟨[], by simp⟩
  cases op with
  | requestMove fromPos toPos =>
    obtain ⟨events, hevents, -⟩ := (engine.goesOn_requestMove fromPos toPos).declares
    exact ⟨_, hevents⟩
  | requestJump pos =>
    obtain ⟨events, hevents, -⟩ := (engine.goesOn_requestJump pos).declares
    exact ⟨_, hevents⟩
  | queuePremove key fromPos toPos => exact hunchanged
  | advanceTime ms =>
    obtain ⟨events, hevents, -⟩ := engine.declares_advanceTime ms
    exact ⟨_, hevents⟩
  | remoteGameEnded winner =>
    rw [step_remoteGameEnded]
    split
    · exact hunchanged
    · exact hunchanged

theorem Ran.eventBus {engine later : GameEngine} (h : engine.Ran later) :
    ∃ added, later.eventBus = engine.eventBus.map (· ++ added) := by
  obtain ⟨ops, rfl⟩ := h
  induction ops generalizing engine with
  | nil => exact ⟨[], by simp⟩
  | cons op ops ih =>
    obtain ⟨added, hadded⟩ := engine.eventBus_step op
    obtain ⟨added', hadded'⟩ := @ih (engine.step op)
    refine ⟨added ++ added', ?_⟩
    have hrun : engine.run (op :: ops) = (engine.step op).run ops := rfl
    rw [hrun, hadded', hadded, Option.map_map]
    simp only [Function.comp_def, List.append_assoc]

end KongFuChess.Engine.GameEngine

namespace KongFuChess.Network

open Model Engine Events Session Matchmaking

theorem ran_processNetworkCommand (input : NetworkInputHandler) (queued : QueuedCommand) :
    input.gameEngine.Ran (input.processNetworkCommand queued) :=
  input.processNetworkCommand_induction queued (.refl _)
    (fun fromPos toPos ↦ .of_step (.requestMove fromPos toPos))
    fun pos ↦ .of_step (.requestJump pos)

namespace Host

variable (host : Host)

theorem applyGameEnded_step (winner : Color) :
    (host.applyGameEnded winner).gameEngine = host.gameEngine.step (.remoteGameEnded winner) := by
  rw [GameEngine.step_remoteGameEnded]
  rfl

theorem ran_serve (result : List Output × WsServer) :
    host.gameEngine.Ran (host.serve result).2.gameEngine := by
  have hlisten : ∀ (later : Host) (output : Output), host.gameEngine.Ran later.gameEngine →
      host.gameEngine.Ran (later.listen output).gameEngine := by
    intro later output hlater
    unfold listen
    split
    · rw [applyGameEnded_step]
      exact hlater.trans (.of_step _)
    · exact hlater
  have hserved : host.gameEngine.Ran ({ host with server := result.2 } : Host).gameEngine :=
    .refl _
  exact Transition.run_invariant listen hlisten hserved result.1

/-- What the host does next to a connection that stays: the engine runs on, the connection remains
registered, and the server on its own says nothing about the board. -/
structure Runs (before : Host) (served : List Output) (after : Host) (connectionId : ConnectionId) :
    Prop where
  engine : before.gameEngine.Ran after.gameEngine
  served : Unrelated served
  isOpen : connectionId ∈ after.server.clients
  clients : after.server.clients.Nodup

variable {host} {connectionId : ConnectionId} (hopen : connectionId ∈ host.server.clients)
  (hclients : host.server.clients.Nodup)
include hopen hclients

theorem runs_serve (op : WsServer.Op) (hop : ∀ now, op ≠ .closed connectionId now) :
    host.Runs (host.serve (host.server.perform op)).1 (host.serve (host.server.perform op)).2
      connectionId where
  engine := host.ran_serve _
  served := host.server.unrelated_outputs op
  isOpen := by
    rw [server_serve]
    exact host.server.stays_step hopen hop
  clients := by
    rw [server_serve]
    exact host.server.clients_nodup_step op hclients

theorem runs_engine {served : List Output} {after : Host}
    (hengine : host.gameEngine.Ran after.gameEngine) (hserved : Unrelated served)
    (hserver : after.server = host.server) : host.Runs served after connectionId :=
  ⟨hengine, hserved, hserver ▸ hopen, hserver ▸ hclients⟩

theorem runs_received {sender : ConnectionId} (hsender : sender ∈ host.server.clients)
    (text : StdString) (record : Option ℤ) (now : TimePoint) :
    host.Runs (host.handleClientMessage sender text record now).1
      (host.handleClientMessage sender text record now).2 connectionId := by
  have herror : ∀ message, Unrelated [Output.sent sender (.error message)] :=
    fun _ ↦ .sent rfl sender
  have hserve : ∀ op : WsServer.Op, (∀ now, op ≠ .closed connectionId now) →
      host.Runs (host.serve (host.server.perform op)).1 (host.serve (host.server.perform op)).2
        connectionId := fun op hop ↦ runs_serve hopen hclients op hop
  unfold handleClientMessage
  split
  · exact runs_engine hopen hclients (.refl _) (herror _) rfl
  · split
    · rename_i login _
      have hlogin := hserve (.login sender login.username) (by simp)
      rwa [WsServer.perform, if_pos hsender] at hlogin
    · have hjoin := hserve (.joinQueue sender record now) (by simp)
      rwa [WsServer.perform, if_pos hsender] at hjoin
    · have hleave := hserve (.leaveQueue sender) (by simp)
      rwa [WsServer.perform, if_pos hsender] at hleave
    · split
      · exact runs_engine hopen hclients (.refl _) (herror _) rfl
      · exact runs_engine hopen hclients (.refl _) .nil rfl
    · split
      · exact runs_engine hopen hclients (.refl _) (herror _) rfl
      · exact runs_engine hopen hclients (.refl _) .nil rfl

/-- What happens to the host while a connection stays open. -/
inductive Staying (host : Host) (connectionId : ConnectionId) : Op → Prop
  | opened (other : ConnectionId) : Staying host connectionId (.opened other)
  | received {sender : ConnectionId} (hsender : sender ∈ host.server.clients) (text : StdString)
    (record : Option ℤ) (now : TimePoint) :
    Staying host connectionId (.received sender text record now)
  | closed {other : ConnectionId} (hother : other ∈ host.server.clients)
    (hne : other ≠ connectionId) (now : TimePoint) :
    Staying host connectionId (.closed other now)
  | queueTick (now : TimePoint) : Staying host connectionId (.queueTick now)
  | graceTick (now : TimePoint) (order : List StdString) :
    Staying host connectionId (.graceTick now order)
  | drain : Staying host connectionId .drain
  | processNext : Staying host connectionId .processNext
  | advanceTime (ms : ℕ) : Staying host connectionId (.advanceTime ms)

theorem runs_staying {op : Op} (h : host.Staying connectionId op) :
    host.Runs (host.perform op).1 (host.perform op).2 connectionId := by
  cases h with
  | opened other => exact runs_serve hopen hclients (.opened other) (by simp)
  | received hsender text record now => exact runs_received hopen hclients hsender text record now
  | @closed other hother hne now =>
    have hserve := runs_serve hopen hclients (.closed other now) (by simpa using hne)
    rwa [WsServer.perform, if_pos hother] at hserve
  | queueTick now => exact runs_serve hopen hclients (.queueTick now) (by simp)
  | graceTick now order => exact runs_serve hopen hclients (.graceTick now order) (by simp)
  | drain =>
    rw [perform, Host.drain]
    split
    · exact runs_engine hopen hclients (.refl _) .nil rfl
    · exact runs_engine hopen hclients (.refl _) .nil rfl
  | processNext =>
    rw [perform, Host.processNext]
    split
    · exact runs_engine hopen hclients (.refl _) .nil rfl
    · rename_i queued rest _
      exact runs_engine hopen hclients (ran_processNetworkCommand host.input queued) .nil rfl
  | advanceTime ms => exact runs_engine hopen hclients (.of_step (.advanceTime ms)) .nil rfl

end Host

end KongFuChess.Network

namespace KongFuChess.Input

open Model Engine

/-! ## The mouse of the host -/

section Host

variable {controller : Controller} {connection : Connection}
  (hdispatch : controller.dispatch = some connection) (hhost : connection.isServerHost = true)
  (engine : GameEngine)
include hdispatch hhost

/-- The requests of the host go to the server and come back as commands. -/
theorem requestMove_host (fromPos toPos : Position) :
    (controller.requestMove engine fromPos toPos).2 = engine := by
  rw [Controller.requestMove, hdispatch]
  simp only [Connection.dispatchMove, hhost]
  split <;> rfl

theorem requestJump_host (square : Position) :
    (controller.requestJump engine square).2 = engine := by
  rw [Controller.requestJump, hdispatch]
  simp only [Connection.dispatchJump, hhost]
  split <;> rfl

/-- A click of the host at most queues a premove. -/
theorem handleClick_host (x y : ℤ) (playerColor : Option Color) :
    (controller.handleClick engine x y playerColor).1.dispatch = some connection ∧
      ((controller.handleClick engine x y playerColor).2 = engine ∨
        ∃ source destination toPos, (controller.handleClick engine x y playerColor).2 =
          engine.queuePremove source destination toPos) := by
  have hrequest : ∀ toPos,
      (controller.requestMove engine controller.selectedSquare toPos).2 = engine :=
    fun toPos ↦ requestMove_host hdispatch hhost engine _ toPos
  unfold Controller.handleClick
  simp only [hrequest]
  split
  · exact ⟨hdispatch, .inl rfl⟩
  split
  · split
    · exact ⟨hdispatch, .inl rfl⟩
    · exact ⟨hdispatch, .inl rfl⟩
  split
  · split
    · exact ⟨hdispatch, .inl rfl⟩
    · split
      · exact ⟨hdispatch, .inl rfl⟩
      · exact ⟨hdispatch, .inl rfl⟩
  split
  · exact ⟨hdispatch, .inl rfl⟩
  split
  · split
    · exact ⟨hdispatch, .inl rfl⟩
    · exact ⟨hdispatch, .inl rfl⟩
  split
  · -- The selected piece is busy.
    refine ⟨hdispatch, ?_⟩
    unfold Controller.clickWhileBusy
    split
    · split
      · exact .inr ⟨_, _, _, rfl⟩
      · exact .inl rfl
    · exact .inl rfl
  split
  · split
    · exact ⟨hdispatch, .inl rfl⟩
    · exact ⟨hdispatch, .inl rfl⟩
  split
  · exact ⟨hdispatch, .inl rfl⟩
  · split
    · exact ⟨hdispatch, .inl rfl⟩
    · exact ⟨hdispatch, .inl rfl⟩

theorem handleJump_host (x y : ℤ) (playerColor : Option Color) :
    (controller.handleJump engine x y playerColor).1.dispatch = some connection ∧
      (controller.handleJump engine x y playerColor).2 = engine := by
  have hrequest : ∀ square, (controller.requestJump engine square).2 = engine :=
    fun square ↦ requestJump_host hdispatch hhost engine square
  unfold Controller.handleJump
  simp only [hrequest]
  split
  · exact ⟨hdispatch, rfl⟩
  split
  · exact ⟨hdispatch, rfl⟩
  split
  · exact ⟨hdispatch, rfl⟩
  · exact ⟨hdispatch, rfl⟩

end Host

end KongFuChess.Input

namespace KongFuChess.App

open Model Engine Events Network Session Matchmaking Input View Db Elo

namespace HostedGame

/-! ## The match -/

variable {σ : Type*}

/-- The connection has stayed open, and the controller sends its requests to the server. -/
structure Connected (connectionId : ConnectionId) (game : HostedGame σ) : Prop where
  dispatch : game.controller.dispatch = some connection
  isOpen : connectionId ∈ game.host.server.clients
  clients : game.host.server.clients.Nodup

/-- Between two states the engine has gone through a run without publishing anything. -/
structure RanSilently (engine later : GameEngine) : Prop where
  ran : engine.Ran later
  eventBus : later.eventBus = engine.eventBus

theorem RanSilently.refl (engine : GameEngine) : RanSilently engine engine := ⟨.refl engine, rfl⟩

theorem RanSilently.trans {engine later last : GameEngine} (h : RanSilently engine later)
    (h' : RanSilently later last) : RanSilently engine last :=
  ⟨h.ran.trans h'.ran, h'.eventBus.trans h.eventBus⟩

theorem ranSilently_queuePremove (engine : GameEngine) (source destination toPos : Position) :
    RanSilently engine (engine.queuePremove source destination toPos) :=
  ⟨.of_step (.queuePremove source destination toPos), rfl⟩

theorem ranSilently_mouse (playerColor : Color) (state : Controller × GameEngine)
    (events : List MouseEvent) (hdispatch : state.1.dispatch = some connection) :
    (events.foldl (onPlayerMouse playerColor) state).1.dispatch = some connection ∧
      RanSilently state.2 (events.foldl (onPlayerMouse playerColor) state).2 := by
  induction events generalizing state with
  | nil => exact ⟨hdispatch, .refl _⟩
  | cons event events ih =>
    have hevent : (onPlayerMouse playerColor state event).1.dispatch = some connection ∧
        RanSilently state.2 (onPlayerMouse playerColor state event).2 := by
      cases event with
      | leftButton x y =>
        obtain ⟨hsame, hengine⟩ := handleClick_host hdispatch rfl state.2 x y (some playerColor)
        refine ⟨hsame, ?_⟩
        rw [onPlayerMouse]
        rcases hengine with heq | ⟨source, destination, toPos, heq⟩
        · rw [heq]
          exact .refl _
        · rw [heq]
          exact ranSilently_queuePremove ..
      | rightButton x y =>
        obtain ⟨hsame, hengine⟩ := handleJump_host hdispatch rfl state.2 x y (some playerColor)
        refine ⟨hsame, ?_⟩
        rw [onPlayerMouse, hengine]
        exact .refl _
    obtain ⟨hlater, hran⟩ := ih (onPlayerMouse playerColor state event) hevent.1
    exact ⟨hlater, hevent.2.trans hran⟩

theorem ranSilently_processMessage (json : StdString) (now : TimePoint) (engine : GameEngine)
    (overlay : DisconnectOverlayState) :
    RanSilently engine (processServerMessage true json now engine overlay).1 := by
  have hended : ∀ winner, RanSilently engine
      (if engine.isGameOver then engine else engine.applyRemoteGameEnded winner) := by
    intro winner
    have hstep := @GameEngine.Ran.of_step engine (.remoteGameEnded winner)
    rw [GameEngine.step_remoteGameEnded] at hstep
    refine ⟨hstep, ?_⟩
    split
    · rfl
    · rfl
  unfold processServerMessage
  split
  · unfold applyGameEndedMessage
    split
    · exact hended _
    · exact .refl engine
  · exact .refl engine
  · exact .refl engine
  · exact .refl engine

/-- What happens next in a match with a connection that stays: the engine runs on, and the texts
about the board that the connection is sent are those of the events that the engine publishes. -/
structure Goes (connectionId : ConnectionId) (before : HostedGame σ) (outputs : List Output)
    (after : HostedGame σ) : Prop where
  connected : after.Connected connectionId
  ran : before.host.gameEngine.Ran after.host.gameEngine
  told : before.host.gameEngine.eventBus.isSome = true →
    outputs.filterMap (Output.boardTextFor connectionId) =
      boardTexts (publishedSince before.host.gameEngine after.host.gameEngine)

variable (sqlite : Sqlite σ) (double : Doubles) {connectionId : ConnectionId}
  {game : HostedGame σ}

theorem publishedSince_of_map {before after : GameEngine} {added : List GameEvent}
    (h : after.eventBus = before.eventBus.map (· ++ added))
    (hbus : before.eventBus.isSome = true) :
    after.eventBus.isSome = true ∧ publishedSince before after = added := by
  obtain ⟨events, hevents⟩ := Option.isSome_iff_exists.1 hbus
  rw [hevents, Option.map_some] at h
  rw [publishedSince, h, hevents]
  exact ⟨rfl, List.drop_left⟩

theorem goes_performHost (h : game.Connected connectionId) {op : Host.Op}
    (hop : game.host.Staying connectionId op) :
    Goes connectionId game (game.performHost sqlite double op).1
      (game.performHost sqlite double op).2 := by
  have hruns := Host.runs_staying h.isOpen h.clients hop
  unfold performHost
  dsimp only
  rw [foldl_listen]
  refine ⟨⟨h.dispatch, hruns.isOpen, hruns.clients⟩, hruns.engine, fun _ ↦ ?_⟩
  rw [List.filterMap_append, hruns.served.filterMap_eq_nil, List.nil_append]
  exact WsServer.boardTextFor_flatMap_publish hruns.isOpen hruns.clients _

theorem goes_silently (h : game.Connected connectionId) {after : HostedGame σ}
    (hdispatch : after.controller.dispatch = some connection)
    (hserver : after.host.server = game.host.server)
    (hran : RanSilently game.host.gameEngine after.host.gameEngine) :
    Goes connectionId game [] after where
  connected := ⟨hdispatch, hserver ▸ h.isOpen, hserver ▸ h.clients⟩
  ran := hran.ran
  told := fun _ ↦ by
    rw [publishedSince, hran.eventBus, List.drop_length]
    rfl

theorem goes_processMessage (h : game.Connected connectionId) (json : StdString)
    (rest : List StdString) (now : TimePoint) :
    Goes connectionId game [] (game.processMessage json rest now) :=
  goes_silently h h.dispatch rfl (ranSilently_processMessage json now _ _)

/-- A statement that touches neither the controller nor the host is silent. -/
theorem goes_of_same (h : game.Connected connectionId) {after : HostedGame σ}
    (hcontroller : after.controller = game.controller) (hhost : after.host = game.host) :
    Goes connectionId game [] after := by
  refine goes_silently h ?_ ?_ ?_
  · rw [hcontroller]
    exact h.dispatch
  · rw [hhost]
  · rw [hhost]
    exact .refl _

theorem goes_performMain (h : game.Connected connectionId) (input : FrameInput) :
    Goes connectionId game (game.performMain sqlite double input).1
      (game.performMain sqlite double input).2 := by
  have hnext : ∀ (stage : Stage) {op : Host.Op}, game.host.Staying connectionId op →
      Goes connectionId game ((game.goTo stage).performHost sqlite double op).1
        ((game.goTo stage).performHost sqlite double op).2 := by
    intro stage op hop
    have hthere : (game.goTo stage).Connected connectionId := ⟨h.dispatch, h.isOpen, h.clients⟩
    have hgoes := goes_performHost sqlite double hthere hop
    exact ⟨hgoes.connected, hgoes.ran, hgoes.told⟩
  unfold performMain
  split
  · exact goes_of_same h rfl rfl
  · exact hnext _ (.queueTick _)
  · exact hnext _ (.graceTick _ _)
  · exact goes_of_same h rfl rfl
  · split
    · exact goes_of_same h rfl rfl
    · exact goes_processMessage h _ _ _
  · exact hnext _ .drain
  · split
    · exact goes_of_same h rfl rfl
    · exact goes_performHost sqlite double h .processNext
  · exact goes_of_same h rfl rfl
  · exact hnext _ (.advanceTime 16)
  · obtain ⟨hdispatch, hran⟩ := ranSilently_mouse game.matchInfo.color
      (game.controller, game.host.gameEngine) input.mouse h.dispatch
    exact goes_silently h hdispatch rfl hran
  · exact goes_of_same h rfl rfl
  · split
    · exact goes_of_same h rfl rfl
    · exact goes_processMessage h _ _ _
  · exact goes_of_same h rfl rfl

/-- The step lemma: one operation other than the closing of the connection. -/
theorem goes_step (h : game.Connected connectionId) {op : GameOp}
    (hop : ∀ now, op ≠ .closed connectionId now) :
    Goes connectionId game (game.outputs sqlite double op) (game.step sqlite double op) := by
  unfold outputs step perform
  cases op with
  | opened other => exact goes_performHost sqlite double h (.opened other)
  | received sender text now =>
    dsimp only
    split
    · have hlooked : ({ game with store := (game.recordFor sqlite sender text).2 } :
          HostedGame σ).Connected connectionId := ⟨h.dispatch, h.isOpen, h.clients⟩
      have hgoes := goes_performHost sqlite double hlooked
        (.received ‹_› text (game.recordFor sqlite sender text).1 now)
      exact ⟨hgoes.connected, hgoes.ran, hgoes.told⟩
    · exact goes_of_same h rfl rfl
  | closed other now =>
    dsimp only
    split
    · refine goes_performHost sqlite double h (.closed ‹_› ?_ now)
      rintro rfl
      exact hop now rfl
    · exact goes_of_same h rfl rfl
  | arrived =>
    dsimp only
    split
    · exact goes_of_same h rfl rfl
    · exact goes_of_same h rfl rfl
  | main input => exact goes_performMain sqlite double h input

/-- The run lemma. -/
theorem goes_run (h : game.Connected connectionId) {ops : List GameOp}
    (hops : ∀ now, GameOp.closed connectionId now ∉ ops) :
    Goes connectionId game
      (Transition.emissions (step sqlite double) (outputs sqlite double) game ops)
      (game.run sqlite double ops) := by
  induction ops generalizing game with
  | nil => exact goes_silently h h.dispatch rfl (.refl _)
  | cons op ops ih =>
    have hop : ∀ now, op ≠ .closed connectionId now := by
      rintro now rfl
      exact hops now (List.mem_cons_self ..)
    have hstep := goes_step sqlite double h hop
    have hrest := ih hstep.connected fun now hmem ↦ hops now (List.mem_cons_of_mem _ hmem)
    refine ⟨hrest.connected, hstep.ran.trans hrest.ran, fun hbus ↦ ?_⟩
    obtain ⟨added, hadded⟩ := hstep.ran.eventBus
    obtain ⟨added', hadded'⟩ := hrest.ran.eventBus
    obtain ⟨hbus', hsince⟩ := publishedSince_of_map hadded hbus
    obtain ⟨-, hsince'⟩ := publishedSince_of_map hadded' hbus'
    have hboth : (game.run sqlite double (op :: ops)).host.gameEngine.eventBus =
        game.host.gameEngine.eventBus.map (· ++ (added ++ added')) := by
      have hrun : game.run sqlite double (op :: ops) =
          (game.step sqlite double op).run sqlite double ops := rfl
      rw [hrun, hadded', hadded, Option.map_map]
      simp only [Function.comp_def, List.append_assoc]
    rw [Transition.emissions_cons, List.filterMap_append, hstep.told hbus, hrest.told hbus', hsince,
      hsince', ← boardTexts_append, (publishedSince_of_map hboth hbus).2]

/-- A connection that stays open during a match is sent the events of the board exactly, in their
order and each once, and these texts are the game: moving the pieces as they say gives the board of
the host, except that a piece removed as the second arrival on its square is left where it was: the
square is empty on the board of the host, and on the other one it shows that piece. -/
theorem told_run (server : WsServer) (hclients : server.clients.Nodup)
    {connectionId : ConnectionId} (hopen : connectionId ∈ server.clients)
    (commandQueue : CommandQueue) (engine : GameEngine)
    (hstandard : ∀ pos, engine.board.inBounds pos = true ↔ Io.OnStandardBoard pos)
    (store : UserStore σ) (matchInfo : MatchInfo) (own : ConnectionId) (arriving : List StdString)
    {ops : List GameOp} (hops : ∀ now, GameOp.closed connectionId now ∉ ops) :
    let game := start server commandQueue engine store matchInfo own arriving
    let later := (game.run sqlite double ops).host.gameEngine
    let texts := (Transition.emissions (step sqlite double) (outputs sqlite double) game
      ops).filterMap (Output.boardTextFor connectionId)
    ∃ engineOps events, later = engine.attachBus.reset.run engineOps ∧
      later.eventBus = some events ∧ texts = boardTexts events ∧
      ∀ pos,
        let told := (texts.foldl retellText engine.board).cell pos
        told.kind = (later.board.cell pos).kind ∨
          (later.board.cell pos).isEmpty = true ∧
            (pos, told.kind) ∈ Transition.emissions GameEngine.step lostPiecesIn
              engine.attachBus.reset engineOps := by
  intro game later texts
  have hconnected : game.Connected connectionId := ⟨rfl, hopen, hclients⟩
  have hgoes := goes_run sqlite double hconnected hops
  obtain ⟨engineOps, hengine⟩ := hgoes.ran
  have hlater : later = engine.attachBus.reset.run engineOps := hengine
  obtain ⟨events, hevents, hnameable, htells⟩ := @recounts_run engine.attachBus.reset
    hstandard (GameEngine.lifecycle_reset _) rfl engineOps
  have hbus : later.eventBus = some events := by
    rw [hlater]
    exact hevents
  have htexts : texts = boardTexts events := by
    have htold := hgoes.told rfl
    have hsince : publishedSince game.host.gameEngine later = events := by
      rw [publishedSince, hbus]
      rfl
    rw [← hsince]
    exact htold
  refine ⟨engineOps, events, hlater, hbus, htexts, fun pos ↦ ?_⟩
  have hboard : ∀ event ∈ events.filter isBoardEvent, Nameable event :=
    fun event hmem ↦ hnameable event (List.mem_of_mem_filter hmem)
  rw [htexts, boardTexts, foldl_retellText hboard, foldl_filter_isBoardEvent, hlater]
  exact (htells [] engine.board (.refl _)).cells pos

/-- Bob moves a pawn, and his move is performed in the first frame. -/
def bobOpens : List GameOp :=
  [.received 2 (serializeMoveCommand "e7".toList "e5".toList) 0] ++ List.replicate 12 (.main {})

theorem told_run_bobOpens :
    let server := (WsServer.initial 8080).run WsServer.annMeetsBob
    let engine : GameEngine := { board := Io.setupStandardBoard }
    let game := start server {} engine UserStore.annAndBob annAgainstBob 2 []
    let later := (game.run MemoryTable.sqlite evenDoubles bobOpens).host.gameEngine
    let texts := (Transition.emissions (step MemoryTable.sqlite evenDoubles)
      (outputs MemoryTable.sqlite evenDoubles) game bobOpens).filterMap (Output.boardTextFor 1)
    ∃ engineOps events, later = engine.attachBus.reset.run engineOps ∧
      later.eventBus = some events ∧ texts = boardTexts events ∧
      ∀ pos,
        let told := (texts.foldl retellText engine.board).cell pos
        told.kind = (later.board.cell pos).kind ∨
          (later.board.cell pos).isEmpty = true ∧
            (pos, told.kind) ∈ Transition.emissions GameEngine.step lostPiecesIn
              engine.attachBus.reset engineOps :=
  told_run MemoryTable.sqlite evenDoubles ((WsServer.initial 8080).run WsServer.annMeetsBob)
    (by decide) (by decide) {} { board := Io.setupStandardBoard } Io.inBounds_setupStandardBoard
    UserStore.annAndBob annAgainstBob 2 [] (by simp [bobOpens])

end HostedGame

end KongFuChess.App
