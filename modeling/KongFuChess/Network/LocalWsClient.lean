import KongFuChess.Network.ClientCommands
import KongFuChess.Server.Sent

/-!
# The connection of a client

A client sends its login as soon as the connection is open, and nothing else until the server has
accepted it. Every text is handed on to the rest of the program; the client itself reads only the
answer to its login, which is never mistaken for another message, whatever names the players have.
-/

namespace KongFuChess.Network

open Model Protocol JsonFields

/-- A player who does not come back to a game is given no colour. -/
def parseLoginOkColor (json : StdString) : Option Color :=
  if parseServerMessageType json ≠ .loginOk then none
  else
    match extractJsonString json "color".toList with
    | none => none
    | some color => if color = "none".toList then none else some (colorFromLabel color)

structure LocalWsClient where
  username : StdString
  loggedIn : Bool := false
  assignedColor : Option Color := none
deriving DecidableEq, Repr

namespace LocalWsClient

/-- The texts that are sent when the connection opens. -/
def handleOpen (client : LocalWsClient) : List StdString := [serializeLoginCommand client.username]

def handleMessage (client : LocalWsClient) (json : StdString) : LocalWsClient :=
  if parseServerMessageType json = .loginOk then
    let client := { client with loggedIn := true }
    match parseLoginOkColor json with
    | some color => { client with assignedColor := some color }
    | none => client
  else client

/-- Connecting begins in the same way. -/
def disconnect (client : LocalWsClient) : LocalWsClient :=
  { client with loggedIn := false, assignedColor := none }

/-! The answer to the caller, and what is sent. -/

def sendMove (client : LocalWsClient) (fromPos toPos : Position) : Bool × List StdString :=
  if !client.loggedIn || fromPos.row < 0 || toPos.row < 0 then (false, [])
  else
    (true, [serializeMoveCommand (Io.positionToAlgebraic fromPos) (Io.positionToAlgebraic toPos)])

def sendJump (client : LocalWsClient) (square : Position) : Bool × List StdString :=
  if !client.loggedIn || square.row < 0 then (false, [])
  else (true, [serializeJumpCommand (Io.positionToAlgebraic square)])

def sendJoinQueue (client : LocalWsClient) : Bool × List StdString :=
  if !client.loggedIn then (false, []) else (true, [serializeJoinQueueCommand])

def sendLeaveQueue (client : LocalWsClient) : Bool × List StdString :=
  if !client.loggedIn then (false, []) else (true, [serializeLeaveQueueCommand])

/-- What the lobby and the controller ask the client to send. -/
inductive Request
  | move (fromPos toPos : Position)
  | jump (square : Position)
  | joinQueue
  | leaveQueue
deriving DecidableEq, Repr

def send (client : LocalWsClient) : Request → Bool × List StdString
  | .move fromPos toPos => client.sendMove fromPos toPos
  | .jump square => client.sendJump square
  | .joinQueue => client.sendJoinQueue
  | .leaveQueue => client.sendLeaveQueue

/-! ## What is sent -/

/-- The text is not read as a login. -/
def IsNoLogin (text : StdString) : Prop :=
  ∀ command, parseClientMessage text ≠ some (.login command)

theorem isNoLogin_of_type {text type : StdString}
    (htype : extractJsonString text "type".toList = some type) (h : type ≠ "login".toList) :
    IsNoLogin text := by
  intro command hparse
  simp only [parseClientMessage, htype, Option.bind_eq_bind, Option.bind_some, if_neg h] at hparse
  split at hparse
  · obtain ⟨_, -, heq⟩ := Option.map_eq_some_iff.1 hparse
    exact ClientCommand.noConfusion heq
  split at hparse
  · obtain ⟨_, -, heq⟩ := Option.map_eq_some_iff.1 hparse
    exact ClientCommand.noConfusion heq
  split at hparse
  · exact ClientCommand.noConfusion (Option.some.inj hparse)
  split at hparse
  · exact ClientCommand.noConfusion (Option.some.inj hparse)
  · exact Option.some_ne_none _ hparse.symm

theorem isNoLogin_serializeMoveCommand (source destination : StdString) :
    IsNoLogin (serializeMoveCommand source destination) := by
  have htype : extractJsonString (serializeMoveCommand source destination) "type".toList =
      some "move".toList := by
    rw [serializeMoveCommand_eq, extractJsonString_write_text (by decide) _ (by decide)]
    rfl
  exact isNoLogin_of_type htype (by decide)

theorem isNoLogin_serializeJumpCommand (square : StdString) :
    IsNoLogin (serializeJumpCommand square) := by
  have htype : extractJsonString (serializeJumpCommand square) "type".toList =
      some "jump".toList := by
    rw [serializeJumpCommand_eq, extractJsonString_write_text (by decide) _ (by decide)]
    rfl
  exact isNoLogin_of_type htype (by decide)

/-- Before the login is accepted nothing is sent, and afterwards no second login. -/
theorem of_mem_send {client : LocalWsClient} {request : Request} {text : StdString}
    (h : text ∈ (client.send request).2) : client.loggedIn = true ∧ IsNoLogin text := by
  cases hlogged : client.loggedIn with
  | false =>
    cases request <;>
      simp [send, sendMove, sendJump, sendJoinQueue, sendLeaveQueue, hlogged] at h
  | true =>
    refine ⟨rfl, ?_⟩
    cases request with
    | move fromPos toPos =>
      rw [send, sendMove] at h
      split at h
      · exact absurd h List.not_mem_nil
      · rw [List.mem_singleton.1 h]
        exact isNoLogin_serializeMoveCommand _ _
    | jump square =>
      rw [send, sendJump] at h
      split at h
      · exact absurd h List.not_mem_nil
      · rw [List.mem_singleton.1 h]
        exact isNoLogin_serializeJumpCommand _
    | joinQueue =>
      rw [send, sendJoinQueue, hlogged] at h
      rw [List.mem_singleton.1 h]
      have htype : extractJsonString serializeJoinQueueCommand "type".toList =
          some "join_queue".toList := by decide
      exact isNoLogin_of_type htype (by decide)
    | leaveQueue =>
      rw [send, sendLeaveQueue, hlogged] at h
      rw [List.mem_singleton.1 h]
      have htype : extractJsonString serializeLeaveQueueCommand "type".toList =
          some "leave_queue".toList := by decide
      exact isNoLogin_of_type htype (by decide)

/-! ## What is received -/

theorem handleMessage_of_ne {message : ServerMessage} (h : ∀ label, message ≠ .loginOk label)
    (client : LocalWsClient) : client.handleMessage message.text = client := by
  rw [handleMessage, parseServerMessageType_text, if_neg]
  cases message with
  | loginOk label => exact absurd rfl (h label)
  | gameEvent event => cases event <;> exact ServerMessageType.noConfusion
  | error | queueJoined | queueLeft | queueTimeout | matchFound | playerDisconnected
  | playerReconnected => exact ServerMessageType.noConfusion

theorem parseLoginOkColor_serialize (seat : Option Color) :
    parseLoginOkColor (serializeLoginOk (seatLabel seat)) = seat := by
  match seat with
  | none => decide
  | some .white => decide
  | some .black => decide

theorem handleMessage_loginOk (client : LocalWsClient) (seat : Option Color) :
    client.handleMessage (ServerMessage.loginOk (seatLabel seat)).text =
      { client with loggedIn := true, assignedColor := seat.or client.assignedColor } := by
  have htype : (ServerMessage.loginOk (seatLabel seat)).messageType = .loginOk := rfl
  have hcolor : parseLoginOkColor (ServerMessage.loginOk (seatLabel seat)).text = seat :=
    parseLoginOkColor_serialize seat
  rw [handleMessage, parseServerMessageType_text, if_pos htype, hcolor]
  cases seat <;> rfl

end LocalWsClient

end KongFuChess.Network
