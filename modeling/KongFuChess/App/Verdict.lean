import KongFuChess.App.GameLoop
import KongFuChess.Engine.Contest
import KongFuChess.Engine.Final
import KongFuChess.Io.BoardSetup
import KongFuChess.Server.Grace

/-!
# The verdict of a hosted game

A game ends in one of two ways: the engine finds a captured king, or the time of a player who is
away runs out. Both results travel over one bus, come back to the host as messages, and are written
to the user store. They meet in one flag: the loop asks for it before the timer of the players who
are away is looked at, the engine before it looks for a captured king, and the handlers before they
take a result from outside. So of all the results that could be published one is, and everybody
hears it once.
-/

namespace KongFuChess.Network

open Model Engine Events Session Matchmaking

namespace Output

def publishedWinner : Output → Option Color
  | .published (.gameEnded ended) => some ended.winner
  | _ => none

/-- The winner that a connection is told. -/
def winnerFor (connectionId : ConnectionId) : Output → Option Color
  | .sent receiver (.gameEvent (.gameEnded ended)) =>
    if receiver = connectionId then some ended.winner else none
  | _ => none

/-- The text that a connection is sent. -/
def textFor (connectionId : ConnectionId) : Output → Option StdString
  | .sent receiver message => if receiver = connectionId then some message.text else none
  | .published _ => none

end Output

/-- The winners that are told, at most one, and that one to nobody twice. -/
structure Tells (verdict : Option Color) (outputs : List Output) : Prop where
  published : outputs.filterMap Output.publishedWinner = verdict.toList
  heard : ∀ connectionId, outputs.filterMap (Output.winnerFor connectionId) = [] ∨
    outputs.filterMap (Output.winnerFor connectionId) = verdict.toList

namespace Tells

variable {verdict : Option Color} {first second : List Output}

theorem nil : Tells none [] := ⟨rfl, fun _ ↦ .inl rfl⟩

theorem none_append (hfirst : Tells none first) (hsecond : Tells verdict second) :
    Tells verdict (first ++ second) where
  published := by rw [List.filterMap_append, hfirst.published, hsecond.published]; rfl
  heard connectionId := by
    have hquiet : first.filterMap (Output.winnerFor connectionId) = [] :=
      (hfirst.heard connectionId).elim id id
    rw [List.filterMap_append, hquiet, List.nil_append]
    exact hsecond.heard connectionId

theorem append_none (hfirst : Tells verdict first) (hsecond : Tells none second) :
    Tells verdict (first ++ second) where
  published := by
    rw [List.filterMap_append, hfirst.published, hsecond.published, Option.toList_none,
      List.append_nil]
  heard connectionId := by
    have hquiet : second.filterMap (Output.winnerFor connectionId) = [] :=
      (hsecond.heard connectionId).elim id id
    rw [List.filterMap_append, hquiet, List.append_nil]
    exact hfirst.heard connectionId

theorem of_forall (h : ∀ output ∈ first, output.publishedWinner = none ∧
    ∀ connectionId, output.winnerFor connectionId = none) : Tells none first where
  published := List.filterMap_eq_nil_iff.2 fun output hmem ↦ (h output hmem).1
  heard connectionId := .inl (List.filterMap_eq_nil_iff.2 fun output hmem ↦
    (h output hmem).2 connectionId)

theorem sent {message : ServerMessage} (h : message.messageType ≠ .gameEnded)
    (connectionId : ConnectionId) : Tells none [.sent connectionId message] := by
  apply of_forall
  intro output hmem
  obtain rfl := List.mem_singleton.1 hmem
  refine ⟨rfl, fun receiver ↦ ?_⟩
  cases message with
  | gameEvent event =>
    cases event with
    | gameEnded ended => exact absurd rfl h
    | gameStarted | completedMove | jumpCapture | moveStarted | jumpStarted => rfl
  | error | loginOk | queueJoined | queueLeft | queueTimeout | matchFound | playerDisconnected
  | playerReconnected => rfl

/-- What tells no winner sends no message of an end. -/
theorem messageType_of_none (h : Tells none first) {connectionId : ConnectionId}
    {message : ServerMessage} (hmem : .sent connectionId message ∈ first) :
    message.messageType ≠ .gameEnded := by
  intro htype
  have hquiet : first.filterMap (Output.winnerFor connectionId) = [] :=
    (h.heard connectionId).elim id id
  have hnone := List.filterMap_eq_nil_iff.1 hquiet _ hmem
  cases message with
  | gameEvent event =>
    cases event with
    | gameEnded ended => simp [Output.winnerFor] at hnone
    | gameStarted | completedMove | jumpCapture | moveStarted | jumpStarted =>
      simp [ServerMessage.messageType] at htype
  | error | loginOk | queueJoined | queueLeft | queueTimeout | matchFound | playerDisconnected
  | playerReconnected => simp [ServerMessage.messageType] at htype

theorem messageType_of_textFor (h : Tells none first) (connectionId : ConnectionId) :
    ∀ json ∈ first.filterMap (Output.textFor connectionId),
      parseServerMessageType json ≠ .gameEnded := by
  intro json hmem
  obtain ⟨output, houtput, hjson⟩ := List.mem_filterMap.1 hmem
  cases output with
  | published event => exact absurd hjson.symm (Option.some_ne_none json)
  | sent receiver message =>
    rw [Output.textFor] at hjson
    split at hjson
    · rw [← Option.some.inj hjson, parseServerMessageType_text]
      exact h.messageType_of_none houtput
    · exact absurd hjson.symm (Option.some_ne_none json)

end Tells

namespace WsServer

/-! ## What the server tells -/

variable (server : WsServer)

theorem tells_broadcast {message : ServerMessage} (h : message.messageType ≠ .gameEnded) :
    Tells none (server.broadcast message) := by
  unfold broadcast
  induction server.clients with
  | nil => exact .nil
  | cons client clients ih => exact (Tells.sent h client).none_append ih

theorem tells_sendToConnection {message : ServerMessage} (h : message.messageType ≠ .gameEnded)
    (connectionId : ConnectionId) : Tells none (server.sendToConnection connectionId message) := by
  unfold sendToConnection
  split
  · exact .sent h connectionId
  · exact .nil

theorem tells_publish {event : GameEvent} (h : GameEngine.isGameEnded event = false) :
    Tells none (server.publish event) := by
  have hpublished : Tells none [Output.published event] := by
    apply Tells.of_forall
    intro output hmem
    obtain rfl := List.mem_singleton.1 hmem
    cases event with
    | gameEnded ended => exact absurd h (by simp [GameEngine.isGameEnded])
    | gameStarted | completedMove | jumpCapture | moveStarted | jumpStarted =>
      exact ⟨rfl, fun _ ↦ rfl⟩
  refine hpublished.none_append (server.tells_broadcast ?_)
  cases event with
  | gameEnded ended => exact absurd h (by simp [GameEngine.isGameEnded])
  | gameStarted | completedMove | jumpCapture | moveStarted | jumpStarted =>
    simp [ServerMessage.messageType]

/-- A result reaches every client once. -/
theorem tells_publish_gameEnded (h : server.clients.Nodup) (winner : Color) :
    Tells (some winner) (server.publish (.gameEnded ⟨winner⟩)) where
  published := by
    rw [publish, List.filterMap_cons, broadcast, List.filterMap_map]
    exact congrArg (winner :: ·) (List.filterMap_eq_nil_iff.2 fun _ _ ↦ rfl)
  heard connectionId := by
    rw [publish, List.filterMap_cons, broadcast, List.filterMap_map]
    have hheard : server.clients.filterMap
        (Output.winnerFor connectionId ∘ fun client ↦
          Output.sent client (.gameEvent (.gameEnded ⟨winner⟩))) =
        (server.clients.filter (· = connectionId)).map fun _ ↦ winner := by
      induction server.clients with
      | nil => rfl
      | cons client clients ih =>
        rw [List.filterMap_cons, ih, List.filter_cons]
        by_cases hsame : client = connectionId
        · simp [Output.winnerFor, hsame]
        · simp [Output.winnerFor, hsame]
    simp only [Output.winnerFor, hheard]
    by_cases hmem : connectionId ∈ server.clients
    · right
      rw [List.filter_eq, List.count_eq_one_of_mem h hmem]
      rfl
    · left
      rw [List.filter_eq, List.count_eq_zero_of_not_mem hmem]
      rfl

theorem tells_handleLogin (connectionId : ConnectionId) (username : StdString) :
    Tells none (server.handleLogin connectionId username).1 := by
  have hsent : ∀ message : ServerMessage, message.messageType ≠ .gameEnded →
      Tells none [Output.sent connectionId message] := fun _ h ↦ .sent h connectionId
  unfold handleLogin
  split
  · split
    · refine (tells_broadcast _ (by simp [ServerMessage.messageType])).none_append ?_
      split
      · exact hsent _ (by simp [ServerMessage.messageType])
      · exact (hsent _ (by simp [ServerMessage.messageType])).none_append
          (hsent _ (by simp [ServerMessage.messageType]))
    · exact hsent _ (by simp [ServerMessage.messageType])
  · split <;> exact hsent _ (by simp [ServerMessage.messageType])

theorem tells_handleJoinQueue (connectionId : ConnectionId) (record : Option ℤ) (now : TimePoint) :
    Tells none (server.handleJoinQueue connectionId record now).1 := by
  unfold handleJoinQueue
  split
  · exact .sent (by simp [ServerMessage.messageType]) connectionId
  · dsimp only
    split
    · exact .sent (by simp [ServerMessage.messageType]) connectionId
    · have hmatched : ∀ receiver color opponent port, Tells none
          (sendToConnection server receiver (.matchFound color opponent port)) :=
        fun receiver _ _ _ ↦ tells_sendToConnection _ (by simp [ServerMessage.messageType]) receiver
      refine (Tells.sent (by simp [ServerMessage.messageType]) connectionId).none_append ?_
      unfold notifyMatch
      dsimp only
      exact ((hmatched _ _ _ _).none_append (hmatched _ _ _ _)).none_append (tells_publish _ rfl)

/-- A tick of the grace timer is the only operation that publishes a result. -/
theorem tells_outputs (op : Op) (h : server.clients.Nodup) :
    Tells (server.graceWinner op) (server.outputs op) := by
  unfold outputs perform graceWinner
  cases op with
  | opened connectionId => exact .nil
  | login connectionId username =>
    dsimp only
    split
    · exact server.tells_handleLogin connectionId username
    · exact .nil
  | joinQueue connectionId record now =>
    dsimp only
    split
    · exact server.tells_handleJoinQueue connectionId record now
    · exact .nil
  | leaveQueue connectionId =>
    dsimp only
    split
    · unfold handleLeaveQueue
      split <;> exact .sent (by simp [ServerMessage.messageType]) connectionId
    · exact .nil
  | closed connectionId now =>
    dsimp only
    split
    · unfold handleDisconnect
      split
      · exact tells_broadcast _ (by simp [ServerMessage.messageType])
      · exact .nil
    · exact .nil
  | queueTick now =>
    dsimp only [tickQueueTimeouts]
    induction (server.matchmakingQueue.tick now).1 with
    | nil => exact .nil
    | cons entry expired ih =>
      exact (tells_sendToConnection _ (by simp [ServerMessage.messageType]) _).none_append ih
  | graceTick now order =>
    dsimp only [tickGrace]
    split
    · rename_i heq
      rw [heq]
      exact .nil
    · rename_i winner manager heq
      rw [heq]
      exact tells_publish_gameEnded _ h winner

theorem clients_nodup_step (op : Op) (h : server.clients.Nodup) :
    (server.step op).clients.Nodup := by
  have heffect := server.step_effect op
  revert heffect
  generalize server.step op = later
  intro heffect
  cases heffect with
  | opened connectionId => exact h.insert
  | seatLost | closed => exact h.erase _
  | unchanged | loggedIn | seated | reconnected | queued | matched | leftQueue | queueTicked
  | expired => exact h

end WsServer

end KongFuChess.Network

namespace KongFuChess.Engine.GameEngine

open Model Realtime Events

/-! ## What the engine tells -/

variable (engine : GameEngine)

/-- The winner that a call declares. -/
def declared (ms : ℤ) : Option Color :=
  if engine.isGameOver then none else (engine.completing ms).findSome? engine.verdict

/-- Between two states, one result or none has been published among other events. -/
def Declares (before after : GameEngine) (verdict : Option Color) : Prop :=
  ∃ events : List GameEvent,
    after.eventBus = before.eventBus.map
      (· ++ ((verdict.map fun winner ↦ GameEvent.gameEnded ⟨winner⟩).toList ++ events)) ∧
    ∀ event ∈ events, isGameEnded event = false

theorem Declares.refl : engine.Declares engine none := ⟨[], by simp, by simp⟩

/-- Between two states the game has gone on. -/
structure GoesOn (before after : GameEngine) : Prop where
  declares : before.Declares after none
  winner : after.winner = before.winner
  isGameOver : after.isGameOver = before.isGameOver

theorem GoesOn.refl : engine.GoesOn engine := ⟨.refl engine, rfl, rfl⟩

theorem goesOn_start (motion : Motion) {event : GameEvent} (h : isGameEnded event = false) :
    engine.GoesOn (engine.start motion event) :=
  ⟨⟨[event], eventBus_start .., by simpa using h⟩, rfl, rfl⟩

theorem goesOn_requestMove (fromPos toPos : Position) :
    engine.GoesOn (engine.requestMove fromPos toPos).2 :=
  requestMove_induction (fun _ ↦ engine.goesOn_start _ rfl) (.refl engine)

theorem goesOn_requestJump (pos : Position) : engine.GoesOn (engine.requestJump pos).2 :=
  requestJump_induction (fun _ ↦ engine.goesOn_start _ rfl) (.refl engine)

theorem checkGameOver_declared (ms : ℤ) :
    engine.checkGameOverFromCompletingMoves (engine.completing ms) =
      match engine.declared ms with
      | none => engine
      | some winner => engine.endGame winner := by
  rw [checkGameOver_eq, declared]
  split <;> rfl

theorem declares_advanceTime (ms : ℤ) :
    engine.Declares (engine.advanceTime ms) (engine.declared ms) := by
  obtain ⟨starts, hstarts, hstarted⟩ :=
    (engine.afterArrivals ms).publishes_processPremoves (engine.completing ms)
  have hchecked : (engine.checkGameOverFromCompletingMoves (engine.completing ms)).eventBus =
      engine.eventBus.map
        (· ++ ((engine.declared ms).map fun winner ↦ GameEvent.gameEnded ⟨winner⟩).toList) := by
    rw [checkGameOver_declared]
    cases engine.declared ms with
    | none => simp
    | some winner => rfl
  refine ⟨(engine.arrivalTick ms).resolutions.map GameEvent.ofResolution ++ starts, ?_, ?_⟩
  · rw [advanceTime_eq, eventBus_applyCooldown, hstarts, eventBus_afterArrivals, hchecked,
      Option.map_map, Option.map_map]
    simp only [Function.comp_def, List.append_assoc]
  · intro event hmem
    rcases List.mem_append.1 hmem with hresolution | hstart
    · obtain ⟨resolution, -, rfl⟩ := List.mem_map.1 hresolution
      cases resolution <;> rfl
    · obtain ⟨started, rfl⟩ := hstarted event hstart
      rfl

theorem winner_declared (ms : ℤ) :
    (engine.advanceTime ms).winner = (engine.declared ms).or engine.winner := by
  rw [winner_advanceTime, checkGameOver_declared]
  cases engine.declared ms <;> rfl

theorem isGameOver_declared (ms : ℤ) :
    (engine.advanceTime ms).isGameOver = (engine.isGameOver || (engine.declared ms).isSome) := by
  rw [isGameOver_advanceTime, checkGameOver_declared]
  cases engine.declared ms with
  | none => simp
  | some winner => simp [endGame, publish]

end KongFuChess.Engine.GameEngine

namespace KongFuChess.Network

open Model Engine Events Session Matchmaking App

variable {verdict : Option Color}

/-! ## What the host tells -/

theorem tells_flatMap_publish {server : WsServer} (h : server.clients.Nodup)
    {events : List GameEvent} (hevents : ∀ event ∈ events, GameEngine.isGameEnded event = false) :
    Tells verdict ((((verdict.map fun winner ↦ GameEvent.gameEnded ⟨winner⟩).toList) ++
      events).flatMap server.publish) := by
  have hrest : Tells none (events.flatMap server.publish) := by
    induction events with
    | nil => exact .nil
    | cons event events ih =>
      obtain ⟨hevent, hevents⟩ := List.forall_mem_cons.1 hevents
      exact (server.tells_publish hevent).none_append (ih hevents)
  cases verdict with
  | none => exact hrest
  | some winner => exact (server.tells_publish_gameEnded h winner).append_none hrest

theorem publishedSince_of_declares {before after : GameEngine} (h : before.Declares after verdict)
    (hbus : before.eventBus.isSome = true) :
    after.eventBus.isSome = true ∧ ∃ events : List GameEvent,
      publishedSince before after =
        (verdict.map fun winner ↦ GameEvent.gameEnded ⟨winner⟩).toList ++ events ∧
      ∀ event ∈ events, GameEngine.isGameEnded event = false := by
  obtain ⟨published, hpublished⟩ := Option.isSome_iff_exists.1 hbus
  obtain ⟨events, hevents, hnone⟩ := h
  rw [hpublished, Option.map_some] at hevents
  refine ⟨by rw [hevents]; rfl, events, ?_, hnone⟩
  rw [publishedSince, hevents, hpublished, Option.getD_some, Option.getD_some, List.drop_left]

/-- Something that the host does, with the result that it brings about. -/
structure Host.Decides (before : Host) (served : List Output) (after : Host)
    (verdict : Option Color) : Prop where
  tells : Tells verdict
    (served ++ (publishedSince before.gameEngine after.gameEngine).flatMap after.server.publish)
  winner : after.gameEngine.winner = verdict.or before.gameEngine.winner
  isGameOver : after.gameEngine.isGameOver = (before.gameEngine.isGameOver || verdict.isSome)
  fresh : before.gameEngine.isGameOver = true → verdict = none
  bus : after.gameEngine.eventBus.isSome = true
  clients : after.server.clients.Nodup

namespace Host

variable {host : Host}

variable (host) in
theorem server_serve (result : List Output × WsServer) :
    (host.serve result).2.server = result.2 := by
  have hlisten : ∀ (later : Host) (output : Output), later.server = result.2 →
      (later.listen output).server = result.2 := by
    intro later output hlater
    unfold listen
    split <;> exact hlater
  have hstart : ({ host with server := result.2 } : Host).server = result.2 := rfl
  exact Transition.run_invariant listen hlisten hstart result.1

variable (host) in
/-- A host listens for one result, and takes it unless its own game is over. -/
theorem gameEngine_serve (result : List Output × WsServer) (h : Tells verdict result.1) :
    (host.serve result).2.gameEngine =
      verdict.elim host.gameEngine fun winner ↦ (host.applyGameEnded winner).gameEngine := by
  have hlisten : ∀ (outputs : List Output) (before : Host),
      (outputs.foldl listen before).gameEngine =
        (outputs.filterMap Output.publishedWinner).foldl
          (fun engine winner ↦
            if engine.isGameOver then engine else engine.applyRemoteGameEnded winner)
          before.gameEngine := by
    intro outputs
    induction outputs with
    | nil => exact fun _ ↦ rfl
    | cons output outputs ih =>
      intro before
      rw [List.foldl_cons, ih]
      cases output with
      | sent connectionId message => rfl
      | published event => cases event <;> rfl
  unfold serve
  rw [hlisten, h.published]
  cases verdict <;> rfl

/-- What the server does decides what it tells, if the game is not over. -/
theorem decides_serve (op : WsServer.Op) (hbus : host.gameEngine.eventBus.isSome = true)
    (hclients : host.server.clients.Nodup)
    (hfresh : host.gameEngine.isGameOver = true → host.server.graceWinner op = none) :
    host.Decides (host.serve (host.server.perform op)).1 (host.serve (host.server.perform op)).2
      (host.server.graceWinner op) := by
  have htells := host.server.tells_outputs op hclients
  have hengine := gameEngine_serve host (host.server.perform op) htells
  have hserver := server_serve host (host.server.perform op)
  have hnodup := host.server.clients_nodup_step op hclients
  generalize host.server.graceWinner op = verdict at htells hengine hfresh ⊢
  have hsame : (host.serve (host.server.perform op)).2.gameEngine.eventBus =
      host.gameEngine.eventBus := by
    rw [hengine]
    cases verdict with
    | none => rfl
    | some winner =>
      rw [Option.elim_some, applyGameEnded]
      dsimp only
      split <;> rfl
  have hopen : ∀ winner, verdict = some winner → host.gameEngine.isGameOver = false := by
    intro winner hwinner
    rw [← Bool.not_eq_true]
    intro hover
    exact absurd (hwinner.symm.trans (hfresh hover)) (Option.some_ne_none winner)
  constructor
  · rw [publishedSince, hsame, List.drop_length, List.flatMap_nil, List.append_nil]
    exact htells
  · rw [hengine]
    cases verdict with
    | none => rfl
    | some winner => simp [applyGameEnded, hopen winner rfl, GameEngine.applyRemoteGameEnded]
  · rw [hengine]
    cases verdict with
    | none => simp
    | some winner => simp [applyGameEnded, hopen winner rfl, GameEngine.applyRemoteGameEnded]
  · exact hfresh
  · rw [hsame]
    exact hbus
  · rw [hserver]
    exact hnodup

theorem decides_engine {engine : GameEngine}
    (hdeclares : host.gameEngine.Declares engine verdict)
    (hwinner : engine.winner = verdict.or host.gameEngine.winner)
    (hover : engine.isGameOver = (host.gameEngine.isGameOver || verdict.isSome))
    (hfresh : host.gameEngine.isGameOver = true → verdict = none)
    (hbus : host.gameEngine.eventBus.isSome = true) (hclients : host.server.clients.Nodup)
    {after : Host} (hserver : after.server = host.server) (hengine : after.gameEngine = engine) :
    host.Decides [] after verdict := by
  subst hengine
  obtain ⟨hsome, events, hevents, hnone⟩ := publishedSince_of_declares hdeclares hbus
  refine ⟨?_, hwinner, hover, hfresh, hsome, hserver ▸ hclients⟩
  rw [List.nil_append, hevents]
  exact tells_flatMap_publish (hserver ▸ hclients) hnone

theorem decides_goesOn {after : Host} (hgoes : host.gameEngine.GoesOn after.gameEngine)
    (hbus : host.gameEngine.eventBus.isSome = true) (hclients : host.server.clients.Nodup)
    (hserver : after.server = host.server) : host.Decides [] after none :=
  decides_engine hgoes.declares hgoes.winner (by simpa using hgoes.isGameOver) (fun _ ↦ rfl) hbus
    hclients hserver rfl

/-- An answer that leaves server and engine alone. -/
theorem decides_sent {served : List Output} {after : Host} (h : Tells none served)
    (hbus : host.gameEngine.eventBus.isSome = true) (hclients : host.server.clients.Nodup)
    (hserver : after.server = host.server) (hengine : after.gameEngine = host.gameEngine) :
    host.Decides served after none := by
  have hgoes : host.gameEngine.GoesOn after.gameEngine := hengine ▸ .refl host.gameEngine
  have hrest := decides_goesOn hgoes hbus hclients hserver
  exact { hrest with tells := h.none_append hrest.tells }

theorem goesOn_processNetworkCommand (input : NetworkInputHandler) (queued : QueuedCommand) :
    input.gameEngine.GoesOn (input.processNetworkCommand queued) :=
  input.processNetworkCommand_induction queued (.refl _) input.gameEngine.goesOn_requestMove
    input.gameEngine.goesOn_requestJump

theorem decides_received {connectionId : ConnectionId}
    (hopen : connectionId ∈ host.server.clients)
    (hbus : host.gameEngine.eventBus.isSome = true) (hclients : host.server.clients.Nodup)
    (text : StdString) (record : Option ℤ) (now : TimePoint) :
    host.Decides (host.handleClientMessage connectionId text record now).1
      (host.handleClientMessage connectionId text record now).2 none := by
  have herror : ∀ message, Tells none [Output.sent connectionId (.error message)] :=
    fun message ↦ .sent (by simp [ServerMessage.messageType]) connectionId
  unfold handleClientMessage
  split
  · exact decides_sent (herror _) hbus hclients rfl rfl
  · split
    · rename_i login _
      have hserve := decides_serve (.login connectionId login.username) hbus hclients
        fun _ ↦ rfl
      rwa [WsServer.perform, if_pos hopen] at hserve
    · have hserve := decides_serve (.joinQueue connectionId record now) hbus hclients
        fun _ ↦ rfl
      rwa [WsServer.perform, if_pos hopen] at hserve
    · have hserve := decides_serve (.leaveQueue connectionId) hbus hclients fun _ ↦ rfl
      rwa [WsServer.perform, if_pos hopen] at hserve
    · split
      · exact decides_sent (herror _) hbus hclients rfl rfl
      · exact decides_sent .nil hbus hclients rfl rfl
    · split
      · exact decides_sent (herror _) hbus hclients rfl rfl
      · exact decides_sent .nil hbus hclients rfl rfl

/-- What the host does without coming to a result. -/
inductive Undecided (host : Host) : Op → Prop
  | opened (connectionId : ConnectionId) : Undecided host (.opened connectionId)
  | received {connectionId : ConnectionId} (hopen : connectionId ∈ host.server.clients)
    (text : StdString) (record : Option ℤ) (now : TimePoint) :
    Undecided host (.received connectionId text record now)
  | closed {connectionId : ConnectionId} (hopen : connectionId ∈ host.server.clients)
    (now : TimePoint) : Undecided host (.closed connectionId now)
  | queueTick (now : TimePoint) : Undecided host (.queueTick now)
  | drain : Undecided host .drain
  | processNext : Undecided host .processNext

theorem decides_undecided {op : Op} (h : host.Undecided op)
    (hbus : host.gameEngine.eventBus.isSome = true) (hclients : host.server.clients.Nodup) :
    host.Decides (host.perform op).1 (host.perform op).2 none := by
  cases h with
  | opened connectionId =>
    exact decides_serve (.opened connectionId) hbus hclients fun _ ↦ rfl
  | received hopen text record now => exact decides_received hopen hbus hclients text record now
  | @closed connectionId hopen now =>
    have hserve := decides_serve (.closed connectionId now) hbus hclients fun _ ↦ rfl
    rwa [WsServer.perform, if_pos hopen] at hserve
  | queueTick now => exact decides_serve (.queueTick now) hbus hclients fun _ ↦ rfl
  | drain =>
    rw [perform, Host.drain]
    split
    · exact decides_sent .nil hbus hclients rfl rfl
    · exact decides_sent .nil hbus hclients rfl rfl
  | processNext =>
    rw [perform, Host.processNext]
    split
    · exact decides_sent .nil hbus hclients rfl rfl
    · rename_i queued rest _
      exact decides_goesOn (goesOn_processNetworkCommand host.input queued) hbus hclients rfl

theorem decides_graceTick (hover : host.gameEngine.isGameOver = false)
    (hbus : host.gameEngine.eventBus.isSome = true) (hclients : host.server.clients.Nodup)
    (now : TimePoint) (order : List StdString) :
    host.Decides (host.perform (.graceTick now order)).1 (host.perform (.graceTick now order)).2
      (host.server.graceWinner (.graceTick now order)) :=
  decides_serve (.graceTick now order) hbus hclients fun hended ↦
    absurd (hover.symm.trans hended) Bool.false_ne_true

theorem decides_advanceTime (hbus : host.gameEngine.eventBus.isSome = true)
    (hclients : host.server.clients.Nodup) (ms : ℤ) :
    host.Decides (host.perform (.advanceTime ms)).1 (host.perform (.advanceTime ms)).2
      (host.gameEngine.declared ms) := by
  refine decides_engine (host.gameEngine.declares_advanceTime ms)
    (host.gameEngine.winner_declared ms) (host.gameEngine.isGameOver_declared ms) ?_ hbus hclients
    rfl rfl
  intro hover
  rw [GameEngine.declared, if_pos hover]

end Host

end KongFuChess.Network

namespace KongFuChess.App

open Model Engine Events Network Session Matchmaking Input View Db Elo

variable {σ : Type*}

/-- Nothing has been done to the store but that players have been looked up in it. -/
def LookedUp (sqlite : Sqlite σ) (store later : UserStore σ) : Prop :=
  ∃ names, later = Transition.run (fun store name ↦ (store.find sqlite name).2) store names

namespace LookedUp

variable {sqlite : Sqlite σ} {store later last : UserStore σ}

theorem refl (sqlite : Sqlite σ) (store : UserStore σ) : LookedUp sqlite store store := ⟨[], rfl⟩

theorem find (sqlite : Sqlite σ) (store : UserStore σ) (username : StdString) :
    LookedUp sqlite store (store.find sqlite username).2 :=
  ⟨[username], rfl⟩

theorem trans (h : LookedUp sqlite store later) (h' : LookedUp sqlite later last) :
    LookedUp sqlite store last := by
  obtain ⟨names, rfl⟩ := h
  obtain ⟨names', rfl⟩ := h'
  exact ⟨names ++ names', (Transition.run_append _ store names names').symm⟩

end LookedUp

/-- The store when a result is known: rated by it, or as it was. -/
def rated (sqlite : Sqlite σ) (double : Doubles) (store : UserStore σ) (matchInfo : MatchInfo)
    (verdict : Option Color) : UserStore σ :=
  verdict.elim store (rateGame sqlite double store matchInfo.whiteUser matchInfo.blackUser)

/-- The store after a match has been rated by its result, if there is one, and apart from that only
players have been looked up. -/
def RatedOnce (sqlite : Sqlite σ) (double : Doubles) (store : UserStore σ) (matchInfo : MatchInfo)
    (verdict : Option Color) (later : UserStore σ) : Prop :=
  ∃ before, LookedUp sqlite store before ∧
    LookedUp sqlite (rated sqlite double before matchInfo verdict) later

section RatedOnce

variable {sqlite : Sqlite σ} {double : Doubles} {store later last : UserStore σ}
  {matchInfo : MatchInfo} {verdict : Option Color}

theorem RatedOnce.lookedUp (h : RatedOnce sqlite double store matchInfo verdict later)
    (h' : LookedUp sqlite later last) : RatedOnce sqlite double store matchInfo verdict last := by
  obtain ⟨before, hbefore, hlater⟩ := h
  exact ⟨before, hbefore, hlater.trans h'⟩

/-- The store of a match without a result is rated when the result comes. -/
theorem RatedOnce.rated (h : RatedOnce sqlite double store matchInfo none later) :
    RatedOnce sqlite double store matchInfo verdict
      (rated sqlite double later matchInfo verdict) := by
  obtain ⟨before, hbefore, hlater⟩ := h
  exact ⟨later, hbefore.trans hlater, .refl ..⟩

end RatedOnce

namespace HostedGame

variable {sqlite : Sqlite σ} {double : Doubles} {store : UserStore σ} {matchInfo : MatchInfo}
  {verdict : Option Color} {game : HostedGame σ}

/-- The texts that the client of the host has not processed yet. -/
def unread (game : HostedGame σ) : List StdString :=
  game.arriving ++ game.messageQueue.pending ++ game.pendingMessages

/-- The state of a match with this result, if it has one. -/
structure Settled (sqlite : Sqlite σ) (double : Doubles) (store : UserStore σ)
    (matchInfo : MatchInfo) (verdict : Option Color) (game : HostedGame σ) : Prop where
  winner : game.host.gameEngine.winner = verdict
  isGameOver : game.host.gameEngine.isGameOver = verdict.isSome
  bus : game.host.gameEngine.eventBus.isSome = true
  clients : game.host.server.clients.Nodup
  store : RatedOnce sqlite double store matchInfo verdict game.store
  matchInfo : game.matchInfo = matchInfo
  unread : verdict = none → ∀ json ∈ game.unread, parseServerMessageType json ≠ .gameEnded
  /-- The timer is looked at in frames that have begun without a result only. -/
  ticking : game.stage = .queueTick ∨ game.stage = .graceTick → verdict = none

/-! ## Listening -/

variable (sqlite double) in
/-- What the application does with outputs: it rates the results, and its client gets texts. -/
theorem foldl_listen (game : HostedGame σ) (outputs : List Output) :
    outputs.foldl (listen sqlite double) game =
      { game with
        arriving := game.arriving ++ outputs.filterMap (Output.textFor game.connectionId)
        store := (outputs.filterMap Output.publishedWinner).foldl
          (fun store winner ↦
            rateGame sqlite double store game.matchInfo.whiteUser game.matchInfo.blackUser winner)
          game.store } := by
  induction outputs generalizing game with
  | nil => simp
  | cons output outputs ih =>
    rw [List.foldl_cons, ih]
    cases output with
    | published event => cases event <;> rfl
    | sent connectionId message =>
      have hquiet : (Output.sent connectionId message :: outputs).filterMap Output.publishedWinner =
          outputs.filterMap Output.publishedWinner := rfl
      rw [listen, hquiet]
      by_cases hown : connectionId = game.connectionId
      · rw [if_pos hown]
        simp [Output.textFor, hown]
      · rw [if_neg hown]
        simp [Output.textFor, hown]

/-- One step: a match that has a result has it still, and no other one is told. -/
structure Proceeds (sqlite : Sqlite σ) (double : Doubles) (store : UserStore σ)
    (matchInfo : MatchInfo) (verdict told : Option Color)
    (result : List Output × HostedGame σ) : Prop where
  tells : Tells told result.1
  once : verdict = none ∨ told = none
  settled : Settled sqlite double store matchInfo (verdict.or told) result.2

variable {told : Option Color}

theorem Settled.proceeds (h : game.Settled sqlite double store matchInfo verdict) :
    Proceeds sqlite double store matchInfo verdict none ([], game) where
  tells := .nil
  once := .inr rfl
  settled := by rwa [Option.or_none]

theorem Settled.goTo {stage : Stage} (h : game.Settled sqlite double store matchInfo verdict)
    (hstage : stage = .queueTick ∨ stage = .graceTick → verdict = none) :
    (game.goTo stage).Settled sqlite double store matchInfo verdict :=
  { h with ticking := hstage }

theorem proceeds_performHost (h : game.Settled sqlite double store matchInfo verdict) {op : Host.Op}
    (hdecides : game.host.Decides (game.host.perform op).1 (game.host.perform op).2 told)
    (hticking : told = none ∨ game.stage ≠ .queueTick ∧ game.stage ≠ .graceTick) :
    Proceeds sqlite double store matchInfo verdict told (game.performHost sqlite double op) := by
  have honce : verdict = none ∨ told = none := by
    cases verdict with
    | none => exact .inl rfl
    | some winner => exact .inr (hdecides.fresh h.isGameOver)
  have hcurrent : verdict.or told = told.or verdict := by
    rcases honce with rfl | rfl
    · rw [Option.none_or, Option.or_none]
    · rw [Option.none_or, Option.or_none]
  unfold performHost
  refine ⟨hdecides.tells, honce, ?_⟩
  simp only [foldl_listen, hdecides.tells.published]
  constructor
  · rw [hcurrent, ← h.winner]
    exact hdecides.winner
  · rw [Option.isSome_or, ← h.isGameOver]
    exact hdecides.isGameOver
  · exact hdecides.bus
  · exact hdecides.clients
  · rcases honce with rfl | rfl
    · rw [Option.none_or]
      have hrated := @RatedOnce.rated _ _ _ _ _ _ told h.store
      rw [h.matchInfo]
      cases told with
      | none => exact hrated
      | some winner => exact hrated
    · rw [Option.or_none]
      exact h.store
  · exact h.matchInfo
  · intro hnone json hmem
    obtain ⟨rfl, rfl⟩ := Option.or_eq_none_iff.1 hnone
    have hunread := h.unread rfl
    simp only [unread, List.mem_append] at hmem hunread
    rcases hmem with ((harriving | htext) | hpending) | hloop
    · exact hunread json (.inl (.inl harriving))
    · exact hdecides.tells.messageType_of_textFor _ json htext
    · exact hunread json (.inl (.inr hpending))
    · exact hunread json (.inr hloop)
  · intro hstage
    rcases hticking with rfl | ⟨hqueue, hgrace⟩
    · rw [h.ticking hstage, Option.or_none]
    · exact absurd hstage (not_or.2 ⟨hqueue, hgrace⟩)

theorem proceeds_undecided (h : game.Settled sqlite double store matchInfo verdict) {op : Host.Op}
    (hop : game.host.Undecided op) :
    Proceeds sqlite double store matchInfo verdict none (game.performHost sqlite double op) :=
  proceeds_performHost h (Host.decides_undecided hop h.bus h.clients) (.inl rfl)

/-! ## The main thread -/

/-- A message of an end comes when the game is over already. -/
theorem processServerMessage_engine {json : StdString} {now : TimePoint} {engine : GameEngine}
    {overlay : DisconnectOverlayState}
    (h : parseServerMessageType json = .gameEnded → engine.isGameOver = true) :
    (processServerMessage true json now engine overlay).1 = engine := by
  unfold processServerMessage
  split
  · rename_i htype
    unfold applyGameEndedMessage
    split
    · rw [if_pos (h htype)]
    · rfl
  · rfl
  · rfl
  · rfl

theorem Settled.processMessage (h : game.Settled sqlite double store matchInfo verdict)
    {json : StdString} {rest : List StdString} (hpending : game.pendingMessages = json :: rest)
    (now : TimePoint) :
    (game.processMessage json rest now).Settled sqlite double store matchInfo verdict := by
  have hengine : (processServerMessage true json now game.host.gameEngine
      game.disconnectOverlay).1 = game.host.gameEngine := by
    apply processServerMessage_engine
    intro htype
    rw [h.isGameOver, Option.isSome_iff_ne_none]
    intro hnone
    exact h.unread hnone json (by simp [HostedGame.unread, hpending]) htype
  unfold HostedGame.processMessage
  simp only [hengine]
  refine { h with unread := fun hnone other hmem ↦ h.unread hnone other ?_ }
  simp only [HostedGame.unread, List.mem_append, hpending, List.mem_cons] at hmem ⊢
  exact hmem.imp id .inr

theorem Settled.drainMessages (h : game.Settled sqlite double store matchInfo verdict) :
    game.drainMessages.Settled sqlite double store matchInfo verdict := by
  refine { h with unread := fun hnone json hmem ↦ h.unread hnone json ?_ }
  simp only [HostedGame.unread, HostedGame.drainMessages, ClientMessageQueue.drain,
    List.append_nil, List.mem_append] at hmem ⊢
  exact .inl hmem

/-- The mouse does not end the game. -/
theorem onPlayerMouse_engine (playerColor : Color) (state : Controller × GameEngine)
    (event : MouseEvent) :
    (onPlayerMouse playerColor state event).2.winner = state.2.winner ∧
      (onPlayerMouse playerColor state event).2.isGameOver = state.2.isGameOver ∧
      (onPlayerMouse playerColor state event).2.eventBus.isSome = state.2.eventBus.isSome := by
  have hgoes : ∀ later, state.2.GoesOn later → later.winner = state.2.winner ∧
      later.isGameOver = state.2.isGameOver ∧ later.eventBus.isSome = state.2.eventBus.isSome := by
    intro later h
    obtain ⟨events, hevents, -⟩ := h.declares
    exact ⟨h.winner, h.isGameOver, by rw [hevents, Option.isSome_map]⟩
  cases event with
  | leftButton x y =>
    apply handleClick_induction state.1 state.2 (P := fun later ↦ later.winner = state.2.winner ∧
      later.isGameOver = state.2.isGameOver ∧ later.eventBus.isSome = state.2.eventBus.isSome)
    · exact ⟨rfl, rfl, rfl⟩
    · exact fun fromPos toPos ↦ hgoes _ (state.2.goesOn_requestMove fromPos toPos)
    · exact fun _ _ _ _ ↦ ⟨rfl, rfl, rfl⟩
  | rightButton x y =>
    rw [onPlayerMouse]
    rcases handleJump_cases state.1 state.2 x y (some playerColor) with h | h
    · rw [h]
      exact ⟨rfl, rfl, rfl⟩
    · rw [h]
      exact hgoes _ (state.2.goesOn_requestJump _)

theorem run_onPlayerMouse (playerColor : Color) (state : Controller × GameEngine)
    (events : List MouseEvent) :
    (events.foldl (onPlayerMouse playerColor) state).2.winner = state.2.winner ∧
      (events.foldl (onPlayerMouse playerColor) state).2.isGameOver = state.2.isGameOver ∧
      (events.foldl (onPlayerMouse playerColor) state).2.eventBus.isSome =
        state.2.eventBus.isSome := by
  induction events generalizing state with
  | nil => exact ⟨rfl, rfl, rfl⟩
  | cons event events ih =>
    obtain ⟨hwinner, hover, hbus⟩ := onPlayerMouse_engine playerColor state event
    obtain ⟨hwinner', hover', hbus'⟩ := ih (onPlayerMouse playerColor state event)
    exact ⟨hwinner'.trans hwinner, hover'.trans hover, hbus'.trans hbus⟩

theorem Settled.handleWindow (h : game.Settled sqlite double store matchInfo verdict)
    (input : FrameInput) :
    (game.handleWindow input).Settled sqlite double store matchInfo verdict := by
  obtain ⟨hwinner, hover, hbus⟩ := run_onPlayerMouse game.matchInfo.color
    (game.controller, game.host.gameEngine) input.mouse
  exact
    { h with
      winner := hwinner.trans h.winner
      isGameOver := hover.trans h.isGameOver
      bus := hbus.trans h.bus }

theorem proceeds_performMain (h : game.Settled sqlite double store matchInfo verdict)
    (input : FrameInput) :
    ∃ told, Proceeds sqlite double store matchInfo verdict told
      (game.performMain sqlite double input) := by
  have hidle : ∀ {stage : Stage}, stage ≠ .queueTick → stage ≠ .graceTick →
      (stage = .queueTick ∨ stage = .graceTick → verdict = none) :=
    fun hqueue hgrace hstage ↦ absurd hstage (not_or.2 ⟨hqueue, hgrace⟩)
  unfold performMain
  split
  · -- The condition of the loop: a frame begins only while the game is not over.
    refine ⟨none, (h.goTo ?_).proceeds⟩
    split
    · rename_i hbegins
      intro _
      have hover : game.host.gameEngine.isGameOver = false := by simp_all
      rw [h.isGameOver] at hover
      simpa using hover
    · exact hidle (by decide) (by decide)
  · rename_i hstage
    exact ⟨none, proceeds_undecided (h.goTo fun _ ↦ h.ticking (.inl hstage)) (.queueTick _)⟩
  · rename_i hstage
    have hsettled := @Settled.goTo _ _ _ _ _ _ _ .drainMessages h (hidle (by decide) (by decide))
    have hover : game.host.gameEngine.isGameOver = false := by
      rw [h.isGameOver, h.ticking (.inr hstage), Option.isSome_none]
    exact ⟨_, proceeds_performHost hsettled
      (Host.decides_graceTick hover hsettled.bus hsettled.clients _ _)
      (.inr ⟨(by decide : Stage.drainMessages ≠ .queueTick),
        (by decide : Stage.drainMessages ≠ .graceTick)⟩)⟩
  · exact ⟨none, (h.drainMessages.goTo (hidle (by decide) (by decide))).proceeds⟩
  · split
    · exact ⟨none, (h.goTo (hidle (by decide) (by decide))).proceeds⟩
    · exact ⟨none, (h.processMessage ‹_› _).proceeds⟩
  · exact ⟨none, proceeds_undecided (h.goTo (hidle (by decide) (by decide))) .drain⟩
  · split
    · exact ⟨none, (h.goTo (hidle (by decide) (by decide))).proceeds⟩
    · exact ⟨none, proceeds_undecided h .processNext⟩
  · have hsettled := @Settled.goTo _ _ _ _ _ _ _ .advance h (hidle (by decide) (by decide))
    exact ⟨none, Settled.proceeds { hsettled with }⟩
  · have hsettled := @Settled.goTo _ _ _ _ _ _ _ .window h (hidle (by decide) (by decide))
    exact ⟨_, proceeds_performHost hsettled
      (Host.decides_advanceTime hsettled.bus hsettled.clients _)
      (.inr ⟨(by decide : Stage.window ≠ .queueTick), (by decide : Stage.window ≠ .graceTick)⟩)⟩
  · exact ⟨none, ((h.handleWindow input).goTo (hidle (by decide) (by decide))).proceeds⟩
  · exact ⟨none, (h.drainMessages.goTo (hidle (by decide) (by decide))).proceeds⟩
  · split
    · exact ⟨none, (h.goTo (hidle (by decide) (by decide))).proceeds⟩
    · exact ⟨none, (h.processMessage ‹_› _).proceeds⟩
  · exact ⟨none, h.proceeds⟩

theorem proceeds_perform (h : game.Settled sqlite double store matchInfo verdict) (op : GameOp) :
    ∃ told, Proceeds sqlite double store matchInfo verdict told
      (game.perform sqlite double op) := by
  cases op with
  | opened connectionId => exact ⟨none, proceeds_undecided h (.opened connectionId)⟩
  | received connectionId text now =>
    rw [perform]
    split
    · have hlooked : (game.recordFor sqlite connectionId text).2 = game.store ∨
          ∃ username, (game.recordFor sqlite connectionId text).2 =
            (game.store.find sqlite username).2 := by
        unfold recordFor
        split
        · exact .inr ⟨_, rfl⟩
        · exact .inl rfl
      have hstore : LookedUp sqlite game.store (game.recordFor sqlite connectionId text).2 := by
        rcases hlooked with heq | ⟨username, heq⟩
        · rw [heq]
          exact .refl ..
        · rw [heq]
          exact .find ..
      have hsettled : ({ game with store := (game.recordFor sqlite connectionId text).2 } :
          HostedGame σ).Settled sqlite double store matchInfo verdict :=
        { h with store := h.store.lookedUp hstore }
      exact ⟨none, proceeds_undecided hsettled (.received ‹_› _ _ _)⟩
    · exact ⟨none, h.proceeds⟩
  | closed connectionId now =>
    rw [perform]
    split
    · exact ⟨none, proceeds_undecided h (.closed ‹_› _)⟩
    · exact ⟨none, h.proceeds⟩
  | arrived =>
    rw [perform]
    split
    · exact ⟨none, h.proceeds⟩
    · rename_i json rest harriving
      have hsettled : ({ game with
          arriving := rest, messageQueue := game.messageQueue.push json } : HostedGame σ).Settled
            sqlite double store matchInfo verdict := by
        refine { h with unread := fun hnone other hmem ↦ h.unread hnone other ?_ }
        simp only [unread, ClientMessageQueue.push, harriving, List.mem_append, List.mem_cons,
          List.not_mem_nil, or_false] at hmem ⊢
        tauto
      exact ⟨none, hsettled.proceeds⟩
  | main input => exact proceeds_performMain h input

/-- What a run tells, and the state that it ends in. -/
theorem tells_run (h : game.Settled sqlite double store matchInfo verdict) (ops : List GameOp) :
    ∃ told,
      Tells told (Transition.emissions (step sqlite double) (outputs sqlite double) game ops) ∧
      (verdict = none ∨ told = none) ∧
      (game.run sqlite double ops).Settled sqlite double store matchInfo (verdict.or told) := by
  induction ops generalizing game verdict with
  | nil => exact ⟨none, .nil, .inr rfl, by rwa [Option.or_none]⟩
  | cons op ops ih =>
    obtain ⟨first, htells, honce, hsettled⟩ := proceeds_perform h op
    obtain ⟨rest, hrest, hlater, hend⟩ := ih hsettled
    rw [Option.or_assoc] at hend
    rw [Option.or_eq_none_iff] at hlater
    refine ⟨first.or rest, ?_, ?_, hend⟩
    · rw [Transition.emissions_cons]
      cases first with
      | none => exact htells.none_append hrest
      | some winner =>
        obtain rfl : rest = none := hlater.resolve_left fun h ↦ Option.some_ne_none _ h.2
        exact htells.append_none hrest
    · rw [Option.or_eq_none_iff]
      tauto

/-- One verdict. In whatever order the game loop, the threads of the server and the client of the
host take their turns, at most one result is published on the bus, it is the winner of the engine,
no connection is told another one or is told twice, and the ratings are written once for it, or not
at all while there is none. -/
theorem verdict_run (sqlite : Sqlite σ) (double : Doubles) (port : ℤ) (lobby : List WsServer.Op)
    (commandQueue : CommandQueue) (engine : GameEngine) (store : UserStore σ)
    (matchInfo : MatchInfo) (connectionId : ConnectionId) {arriving : List StdString}
    (harriving : ∀ json ∈ arriving, parseServerMessageType json ≠ .gameEnded)
    (ops : List GameOp) :
    let game := start ((WsServer.initial port).run lobby) commandQueue engine store matchInfo
      connectionId arriving
    let later := game.run sqlite double ops
    Tells later.host.gameEngine.winner
        (Transition.emissions (step sqlite double) (outputs sqlite double) game ops) ∧
      later.host.gameEngine.isGameOver = later.host.gameEngine.winner.isSome ∧
      RatedOnce sqlite double store matchInfo later.host.gameEngine.winner later.store := by
  have hclients : ((WsServer.initial port).run lobby).clients.Nodup :=
    Transition.run_invariant WsServer.step (I := fun server : WsServer ↦ server.clients.Nodup)
      (fun server op h ↦ server.clients_nodup_step op h) List.nodup_nil lobby
  intro game later
  have hsettled : game.Settled sqlite double store matchInfo none := by
    constructor
    · rfl
    · rfl
    · rfl
    · exact hclients
    · exact ⟨store, .refl .., .refl ..⟩
    · rfl
    · intro _ json hmem
      exact harriving json (by simpa [game, start, unread] using hmem)
    · exact fun _ ↦ rfl
  obtain ⟨told, htells, -, hend⟩ := tells_run hsettled ops
  rw [Option.none_or] at hend
  have hwinner : later.host.gameEngine.winner = told := hend.winner
  refine ⟨?_, ?_, ?_⟩
  · rw [hwinner]
    exact htells
  · rw [hwinner]
    exact hend.isGameOver
  · rw [hwinner]
    exact hend.store

/-- Ann's connection closes in the match against Bob, and nobody comes back for twenty seconds. -/
def annStaysAway : List GameOp :=
  [.closed 1 0, .main {}, .main {}, .main { now := 20000000000 }, .main {}, .arrived, .main {},
    .main { now := 20000000000 }]

def annAgainstBob : MatchInfo :=
  { color := .black
    opponent := "ann".toList
    whiteUser := "ann".toList
    blackUser := "bob".toList }

theorem verdict_run_annStaysAway :
    let game := start ((WsServer.initial 8080).run WsServer.annMeetsBob) {}
      { board := Io.setupStandardBoard } UserStore.annAndBob annAgainstBob 2 [serializeQueueLeft]
    let later := game.run MemoryTable.sqlite evenDoubles annStaysAway
    Tells later.host.gameEngine.winner
        (Transition.emissions (step MemoryTable.sqlite evenDoubles)
          (outputs MemoryTable.sqlite evenDoubles) game annStaysAway) ∧
      later.host.gameEngine.isGameOver = later.host.gameEngine.winner.isSome ∧
      RatedOnce MemoryTable.sqlite evenDoubles UserStore.annAndBob annAgainstBob
        later.host.gameEngine.winner later.store :=
  verdict_run MemoryTable.sqlite evenDoubles 8080 WsServer.annMeetsBob {}
    { board := Io.setupStandardBoard } UserStore.annAndBob annAgainstBob 2 (by decide) annStaysAway

end HostedGame

end KongFuChess.App
