import KongFuChess.App.Verdict

/-!
# Nothing is lost between the threads

Two queues join the threads of the host's program. The commands of the players go from the threads
of the server to the game loop, and the messages of the server go from the thread of the own client
to it. The loop empties both into lists of its own, once in a frame, and works these off. Whatever
the threads do in between, every command that was accepted is performed once and every message that
was sent is processed once, in the order in which they came, and no frame leaves a list unfinished.
-/

namespace KongFuChess.App

open Model Engine Events Network Session Matchmaking Input View Db Elo

/-- The command that a text brings into the queue, if its sender has a colour. -/
def commandOf (session : SessionManager) (connectionId : ConnectionId) (text : StdString) :
    Option QueuedCommand :=
  match parseClientMessage text with
  | some (.move command) =>
    if (session.colorFor connectionId).isNone then none else some ⟨connectionId, .move command⟩
  | some (.jump command) =>
    if (session.colorFor connectionId).isNone then none else some ⟨connectionId, .jump command⟩
  | _ => none

/-- Not one of the loops over the lists. -/
def Stage.Idle (stage : Stage) : Prop :=
  stage ≠ .commands ∧ stage ≠ .messages ∧ stage ≠ .lastMessages

instance (stage : Stage) : Decidable stage.Idle := inferInstanceAs (Decidable (_ ∧ _ ∧ _))

namespace HostedGame

/-- The command that an operation brings into the queue. -/
def accepted (game : HostedGame σ) : GameOp → List QueuedCommand
  | .received connectionId text _ =>
    if connectionId ∈ game.host.server.clients then
      (commandOf game.host.server.session connectionId text).toList
    else []
  | _ => []

/-- The command that the loop performs next. -/
def performed (game : HostedGame σ) : GameOp → List QueuedCommand
  | .main _ => if game.stage = .commands then game.host.drained.take 1 else []
  | _ => []

/-- The commands that have not been performed yet. -/
def waitingCommands (game : HostedGame σ) : List QueuedCommand :=
  game.host.drained ++ game.host.commandQueue.pending

variable {σ : Type*} (sqlite : Sqlite σ) (double : Doubles)

/-- The texts that an operation sends to the own client. -/
def sentToOwn (game : HostedGame σ) (op : GameOp) : List StdString :=
  (game.outputs sqlite double op).filterMap (Output.textFor game.connectionId)

/-- The text that the loop processes next. -/
def processed (game : HostedGame σ) : GameOp → List StdString
  | .main _ =>
    if game.stage = .messages ∨ game.stage = .lastMessages then game.pendingMessages.take 1 else []
  | _ => []

/-- The texts that have not been processed yet. -/
def waitingTexts (game : HostedGame σ) : List StdString :=
  game.pendingMessages ++ game.messageQueue.pending ++ game.arriving

/-- The lists of the loop are empty except while it works them off. -/
structure Tidy (game : HostedGame σ) : Prop where
  commands : game.stage ≠ .commands → game.host.drained = []
  messages : game.stage ≠ .messages → game.stage ≠ .lastMessages → game.pendingMessages = []

/-- A step lets commands and texts in and out in the order of the queues, and it is tidy. -/
structure Conserves (game : HostedGame σ) (commandsIn commandsOut : List QueuedCommand)
    (textsIn textsOut : List StdString) (after : HostedGame σ) : Prop where
  commands : game.waitingCommands ++ commandsIn = commandsOut ++ after.waitingCommands
  texts : game.waitingTexts ++ textsIn = textsOut ++ after.waitingTexts
  tidy : after.Tidy
  connectionId : after.connectionId = game.connectionId

end HostedGame

end KongFuChess.App

namespace KongFuChess.Network

open Model Engine Events Session Matchmaking App

namespace Host

variable (host : Host)

/-! ## The queue of the host -/

/-- The commands of the host are left alone. -/
structure SameCommands (before after : Host) : Prop where
  drained : after.drained = before.drained
  commandQueue : after.commandQueue = before.commandQueue

theorem sameCommands_serve (result : List Output × WsServer) :
    SameCommands host (host.serve result).2 := by
  have hlisten : ∀ (later : Host) (output : Output), SameCommands host later →
      SameCommands host (later.listen output) := by
    intro later output hlater
    unfold listen
    split
    · exact ⟨hlater.drained, hlater.commandQueue⟩
    · exact hlater
  have hserved : SameCommands host { host with server := result.2 } := ⟨rfl, rfl⟩
  exact Transition.run_invariant listen hlisten hserved result.1

theorem commands_received (connectionId : ConnectionId) (text : StdString) (record : Option ℤ)
    (now : TimePoint) :
    let after := (host.handleClientMessage connectionId text record now).2
    after.drained = host.drained ∧
      after.commandQueue.pending = host.commandQueue.pending ++
        (commandOf host.server.session connectionId text).toList := by
  have hserve : ∀ result, (host.serve result).2.drained = host.drained ∧
      (host.serve result).2.commandQueue.pending = host.commandQueue.pending ++ [] := by
    intro result
    obtain ⟨hdrained, hqueue⟩ := host.sameCommands_serve result
    exact ⟨hdrained, by rw [hqueue, List.append_nil]⟩
  unfold handleClientMessage commandOf
  cases parseClientMessage text with
  | none => simp
  | some command =>
    cases command with
    | login login => exact hserve _
    | joinQueue => exact hserve _
    | leaveQueue => exact hserve _
    | move command =>
      dsimp only
      split
      · simp
      · exact ⟨rfl, rfl⟩
    | jump command =>
      dsimp only
      split
      · simp
      · exact ⟨rfl, rfl⟩

end Host

end KongFuChess.Network

namespace KongFuChess.App

open Model Engine Events Network Session Matchmaking Input View Db Elo

namespace HostedGame

variable {σ : Type*} (sqlite : Sqlite σ) (double : Doubles) {game : HostedGame σ}

/-! ## One step -/

/-- What the host does reaches the own client as texts. -/
theorem conserves_performHost (h : game.Tidy) {op : Host.Op} {commands : List QueuedCommand}
    (hdrained : (game.host.perform op).2.drained = game.host.drained)
    (hqueue : (game.host.perform op).2.commandQueue.pending =
      game.host.commandQueue.pending ++ commands) :
    game.Conserves commands []
      ((game.performHost sqlite double op).1.filterMap (Output.textFor game.connectionId)) []
      (game.performHost sqlite double op).2 := by
  unfold performHost
  dsimp only
  rw [foldl_listen]
  refine ⟨?_, ?_, ⟨fun hstage ↦ hdrained.trans (h.commands hstage), h.messages⟩, rfl⟩
  · simp [waitingCommands, hdrained, hqueue]
  · simp [waitingTexts]

/-- The queues and the lists of the loop are left alone. -/
structure SameQueues (before after : HostedGame σ) : Prop where
  host : before.host.SameCommands after.host
  pendingMessages : after.pendingMessages = before.pendingMessages
  messageQueue : after.messageQueue = before.messageQueue
  arriving : after.arriving = before.arriving
  connectionId : after.connectionId = before.connectionId

theorem SameQueues.conserves {after : HostedGame σ} (h : game.SameQueues after)
    (htidy : after.Tidy) : game.Conserves [] [] [] [] after where
  commands := by
    rw [waitingCommands, waitingCommands, h.host.drained, h.host.commandQueue, List.append_nil,
      List.nil_append]
  texts := by
    rw [waitingTexts, waitingTexts, h.pendingMessages, h.messageQueue, h.arriving, List.append_nil,
      List.nil_append]
  tidy := htidy
  connectionId := h.connectionId

/-- The loop processes a message, as in the middle of a frame so after the last one. -/
theorem conserves_processMessage (h : game.Tidy) {json : StdString} {rest : List StdString}
    (hstage : game.stage = .messages ∨ game.stage = .lastMessages)
    (hpending : game.pendingMessages = json :: rest) (now : TimePoint) :
    game.Conserves [] [] [] [json] (game.processMessage json rest now) := by
  refine ⟨by simp [waitingCommands, processMessage], ?_, ⟨h.commands, ?_⟩, rfl⟩
  · simp [waitingTexts, processMessage, hpending]
  · intro hmessages hlast
    exact absurd hstage (not_or.2 ⟨hmessages, hlast⟩)

/-- The loop takes all messages that have arrived, when it has none left. -/
theorem conserves_drainMessages {stage : Stage}
    (hstage : stage = .messages ∨ stage = .lastMessages)
    (hmessages : game.pendingMessages = []) (hcommands : game.host.drained = []) :
    game.Conserves [] [] [] [] (game.drainMessages.goTo stage) := by
  refine ⟨by simp [waitingCommands, drainMessages, goTo], ?_, ⟨fun _ ↦ hcommands, ?_⟩, rfl⟩
  · simp [waitingTexts, drainMessages, goTo, ClientMessageQueue.drain, hmessages]
  · intro hnot hnot'
    exact absurd hstage (not_or.2 ⟨hnot, hnot'⟩)

/-- The loop takes all commands that wait, when it has none left. -/
theorem conserves_drainCommands (hmessages : game.pendingMessages = [])
    (hcommands : game.host.drained = []) :
    game.Conserves [] [] (((game.goTo .commands).performHost sqlite double .drain).1.filterMap
      (Output.textFor game.connectionId)) []
      ((game.goTo .commands).performHost sqlite double .drain).2 := by
  unfold performHost
  dsimp only
  rw [foldl_listen]
  refine ⟨?_, by simp [waitingTexts, goTo], ⟨?_, fun _ _ ↦ hmessages⟩, rfl⟩
  · simp [waitingCommands, goTo, Host.perform, Host.drain, hcommands, CommandQueue.drain]
  · exact fun hstage ↦ absurd rfl hstage

theorem conserves_processNext {queued : QueuedCommand} {rest : List QueuedCommand}
    (hstage : game.stage = .commands) (hmessages : game.pendingMessages = [])
    (hdrained : game.host.drained = queued :: rest) :
    game.Conserves [] [queued] ((game.performHost sqlite double .processNext).1.filterMap
      (Output.textFor game.connectionId)) [] (game.performHost sqlite double .processNext).2 := by
  unfold performHost
  dsimp only
  rw [foldl_listen]
  refine ⟨?_, by simp [waitingTexts], ⟨?_, fun _ _ ↦ hmessages⟩, rfl⟩
  · simp [waitingCommands, Host.perform, Host.processNext, hdrained]
  · exact fun hnot ↦ absurd hstage hnot

theorem conserves_idle (h : game.Tidy) {input : FrameInput} {textsIn : List StdString}
    {after : HostedGame σ} (hidle : game.stage.Idle)
    (hafter : game.host.drained = [] → game.pendingMessages = [] →
      game.Conserves [] [] textsIn [] after) :
    game.Conserves [] (game.performed (.main input)) textsIn (game.processed (.main input))
      after := by
  obtain ⟨hcommands, hmessages, hlast⟩ := hidle
  rw [performed, if_neg hcommands, processed, if_neg (not_or.2 ⟨hmessages, hlast⟩)]
  exact hafter (h.commands hcommands) (h.messages hmessages hlast)

/-- The two loops over the messages of the server. -/
theorem conserves_messages (h : game.Tidy) (input : FrameInput)
    (hstage : game.stage = .messages ∨ game.stage = .lastMessages) (next : Stage) :
    game.Conserves [] (game.performed (.main input)) [] (game.processed (.main input))
      (match game.pendingMessages with
        | [] => game.goTo next
        | json :: rest => game.processMessage json rest input.now) := by
  have hnot : game.stage ≠ .commands := by
    rcases hstage with hstage | hstage
    · rw [hstage]
      decide
    · rw [hstage]
      decide
  rw [performed, if_neg hnot, processed, if_pos hstage]
  split
  · rename_i hpending
    rw [hpending]
    exact SameQueues.conserves ⟨⟨rfl, rfl⟩, rfl, rfl, rfl, rfl⟩
      ⟨fun _ ↦ h.commands hnot, fun _ _ ↦ hpending⟩
  · rename_i json rest hpending
    rw [hpending]
    exact conserves_processMessage h hstage hpending _

theorem conserves_main (h : game.Tidy) (input : FrameInput) :
    game.Conserves [] (game.performed (.main input))
      ((game.performMain sqlite double input).1.filterMap (Output.textFor game.connectionId))
      (game.processed (.main input)) (game.performMain sqlite double input).2 := by
  have hsame : ∀ {after : HostedGame σ}, game.SameQueues after → game.host.drained = [] →
      game.pendingMessages = [] → game.Conserves [] [] [] [] after := by
    intro after hsame hcommands hmessages
    exact hsame.conserves ⟨fun _ ↦ hsame.host.drained.trans hcommands,
      fun _ _ ↦ hsame.pendingMessages.trans hmessages⟩
  have hserve : ∀ {stage : Stage} {op : Host.Op}, game.host.SameCommands (game.host.perform op).2 →
      game.host.drained = [] → game.pendingMessages = [] →
      game.Conserves [] [] (((game.goTo stage).performHost sqlite double op).1.filterMap
        (Output.textFor game.connectionId)) []
        ((game.goTo stage).performHost sqlite double op).2 := by
    intro stage op hsame hcommands hmessages
    have hthere : (game.goTo stage).Tidy := ⟨fun _ ↦ hcommands, fun _ _ ↦ hmessages⟩
    have hqueue : (game.host.perform op).2.commandQueue.pending =
        game.host.commandQueue.pending ++ [] := by
      rw [hsame.commandQueue, List.append_nil]
    have hconserves := conserves_performHost sqlite double hthere hsame.drained hqueue
    exact ⟨hconserves.commands, hconserves.texts, hconserves.tidy, hconserves.connectionId⟩
  unfold performMain
  split
  · rename_i hstage
    exact conserves_idle h (hstage ▸ by decide) (hsame ⟨⟨rfl, rfl⟩, rfl, rfl, rfl, rfl⟩)
  · rename_i hstage
    exact conserves_idle h (hstage ▸ by decide) (hserve (game.host.sameCommands_serve _))
  · rename_i hstage
    exact conserves_idle h (hstage ▸ by decide) (hserve (game.host.sameCommands_serve _))
  · rename_i hstage
    exact conserves_idle h (hstage ▸ by decide) fun hcommands hmessages ↦
      conserves_drainMessages (.inl rfl) hmessages hcommands
  · rename_i hstage
    have hmessages := conserves_messages h input (.inl hstage) .drainCommands
    split
    · rename_i hpending
      rwa [hpending] at hmessages
    · rename_i hpending
      rwa [hpending] at hmessages
  · rename_i hstage
    exact conserves_idle h (hstage ▸ by decide) fun hcommands hmessages ↦
      conserves_drainCommands sqlite double hmessages hcommands
  · rename_i hstage
    have hmessages := h.messages (by rw [hstage]; decide) (by rw [hstage]; decide)
    have hperformed : game.performed (.main input) = game.host.drained.take 1 := if_pos hstage
    have hprocessed : game.processed (.main input) = [] := if_neg (by rw [hstage]; decide)
    rw [hperformed, hprocessed]
    split
    · rename_i hdrained
      rw [hdrained]
      exact hsame ⟨⟨rfl, rfl⟩, rfl, rfl, rfl, rfl⟩ hdrained hmessages
    · rename_i hdrained
      obtain ⟨queued, rest, hqueued⟩ := List.exists_cons_of_ne_nil hdrained
      rw [hqueued]
      exact conserves_processNext sqlite double hstage hmessages hqueued
  · rename_i hstage
    exact conserves_idle h (hstage ▸ by decide) (hsame ⟨⟨rfl, rfl⟩, rfl, rfl, rfl, rfl⟩)
  · rename_i hstage
    exact conserves_idle h (hstage ▸ by decide) (hserve ⟨rfl, rfl⟩)
  · rename_i hstage
    exact conserves_idle h (hstage ▸ by decide) (hsame ⟨⟨rfl, rfl⟩, rfl, rfl, rfl, rfl⟩)
  · rename_i hstage
    exact conserves_idle h (hstage ▸ by decide) fun hcommands hmessages ↦
      conserves_drainMessages (.inr rfl) hmessages hcommands
  · rename_i hstage
    have hmessages := conserves_messages h input (.inr hstage) .finished
    split
    · rename_i hpending
      rwa [hpending] at hmessages
    · rename_i hpending
      rwa [hpending] at hmessages
  · rename_i hstage
    exact conserves_idle h (hstage ▸ by decide) (hsame ⟨⟨rfl, rfl⟩, rfl, rfl, rfl, rfl⟩)

theorem conserves_step (h : game.Tidy) (op : GameOp) :
    game.Conserves (game.accepted op) (game.performed op) (game.sentToOwn sqlite double op)
      (game.processed op) (game.step sqlite double op) := by
  have hsame : ∀ {after : HostedGame σ}, game.SameQueues after → after.stage = game.stage →
      game.Conserves [] [] [] [] after := by
    intro after hsame hstage
    refine hsame.conserves ⟨?_, ?_⟩
    · rw [hstage, hsame.host.drained]
      exact h.commands
    · rw [hstage, hsame.pendingMessages]
      exact h.messages
  have hserve : ∀ {hostOp : Host.Op}, game.host.SameCommands (game.host.perform hostOp).2 →
      game.Conserves [] [] ((game.performHost sqlite double hostOp).1.filterMap
        (Output.textFor game.connectionId)) [] (game.performHost sqlite double hostOp).2 := by
    intro hostOp hsame
    have hqueue : (game.host.perform hostOp).2.commandQueue.pending =
        game.host.commandQueue.pending ++ [] := by
      rw [hsame.commandQueue, List.append_nil]
    exact conserves_performHost sqlite double h hsame.drained hqueue
  cases op with
  | opened connectionId => exact hserve (game.host.sameCommands_serve _)
  | received connectionId text now =>
    unfold sentToOwn outputs step perform accepted
    dsimp only
    split
    · have hlooked : ({ game with store := (game.recordFor sqlite connectionId text).2 } :
          HostedGame σ).Tidy := ⟨h.commands, h.messages⟩
      obtain ⟨hdrained, hqueue⟩ := game.host.commands_received connectionId text
        (game.recordFor sqlite connectionId text).1 now
      have hconserves := @conserves_performHost σ sqlite double _ hlooked
        (.received connectionId text (game.recordFor sqlite connectionId text).1 now) _ hdrained
        hqueue
      exact ⟨hconserves.commands, hconserves.texts, hconserves.tidy, hconserves.connectionId⟩
    · exact hsame ⟨⟨rfl, rfl⟩, rfl, rfl, rfl, rfl⟩ rfl
  | closed connectionId now =>
    unfold sentToOwn outputs step perform
    dsimp only
    split
    · exact hserve (game.host.sameCommands_serve _)
    · exact hsame ⟨⟨rfl, rfl⟩, rfl, rfl, rfl, rfl⟩ rfl
  | arrived =>
    unfold sentToOwn outputs step perform
    dsimp only
    split
    · exact hsame ⟨⟨rfl, rfl⟩, rfl, rfl, rfl, rfl⟩ rfl
    · rename_i json rest harriving
      refine ⟨by simp [waitingCommands, accepted, performed], ?_, ⟨h.commands, h.messages⟩, rfl⟩
      simp [waitingTexts, processed, harriving, ClientMessageQueue.push]
  | main input => exact conserves_main sqlite double h input

/-! ## The run -/

end HostedGame

end KongFuChess.App
