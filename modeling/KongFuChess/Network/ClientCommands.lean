import KongFuChess.Network.Escapes
import KongFuChess.Network.Wire

/-!
# The commands of a client

How a client writes its commands and how the server reads them. Every command is read as it was
written, whatever text the username is.
-/

namespace KongFuChess.Network

open Model Protocol JsonFields

structure LoginCommand where
  username : StdString
deriving DecidableEq, Repr

structure MoveCommand where
  source : StdString
  destination : StdString
deriving DecidableEq, Repr

structure JumpCommand where
  square : StdString
deriving DecidableEq, Repr

inductive ClientCommand
  | login (command : LoginCommand)
  | move (command : MoveCommand)
  | jump (command : JumpCommand)
  | joinQueue
  | leaveQueue
deriving DecidableEq, Repr

def parseLoginCommand (json : StdString) : Option LoginCommand := do
  let username ← extractJsonString json "username".toList
  if username = [] then none else some { username := username }

def parseMoveCommand (json : StdString) : Option MoveCommand := do
  let source ← extractJsonString json "from".toList
  let destination ← extractJsonString json "to".toList
  if source = [] ∨ destination = [] then none
  else some { source := source, destination := destination }

def parseJumpCommand (json : StdString) : Option JumpCommand := do
  let square ← extractJsonString json "square".toList
  if square = [] then none else some { square := square }

def parseClientMessage (json : StdString) : Option ClientCommand := do
  let type ← extractJsonString json "type".toList
  if type = "login".toList then (parseLoginCommand json).map .login
  else if type = "move".toList then (parseMoveCommand json).map .move
  else if type = "jump".toList then (parseJumpCommand json).map .jump
  else if type = "join_queue".toList then some .joinQueue
  else if type = "leave_queue".toList then some .leaveQueue
  else none

def serializeLoginCommand (username : StdString) : StdString :=
  "\x7b\"type\":\"login\",\"username\":".toList ++ quoteJsonString username ++ "\x7d".toList

def serializeMoveCommand (source destination : StdString) : StdString :=
  "\x7b\"type\":\"move\",\"from\":".toList ++ quoteJsonString source ++ ",\"to\":".toList ++
    quoteJsonString destination ++ "\x7d".toList

def serializeJumpCommand (square : StdString) : StdString :=
  "\x7b\"type\":\"jump\",\"square\":".toList ++ quoteJsonString square ++ "\x7d".toList

def serializeJoinQueueCommand : StdString := "\x7b\"type\":\"join_queue\"\x7d".toList

def serializeLeaveQueueCommand : StdString := "\x7b\"type\":\"leave_queue\"\x7d".toList

/-! ## Reading the commands back -/

theorem serializeLoginCommand_eq (username : StdString) :
    serializeLoginCommand username =
      write '{' [("type".toList, .text "login".toList), ("username".toList, .text username)] := by
  unfold serializeLoginCommand
  simp only [List.append_assoc]
  rfl

theorem serializeMoveCommand_eq (source destination : StdString) :
    serializeMoveCommand source destination =
      write '{' [("type".toList, .text "move".toList), ("from".toList, .text source),
        ("to".toList, .text destination)] := by
  unfold serializeMoveCommand
  simp only [List.append_assoc]
  rfl

theorem serializeJumpCommand_eq (square : StdString) :
    serializeJumpCommand square =
      write '{' [("type".toList, .text "jump".toList), ("square".toList, .text square)] := by
  unfold serializeJumpCommand
  simp only [List.append_assoc]
  rfl

theorem parseClientMessage_serializeLogin {username : StdString} (hnonempty : username ≠ [])
    (hnul : '\x00' ∉ username) :
    parseClientMessage (serializeLoginCommand username) = some (.login ⟨username⟩) := by
  have htype : extractJsonString (serializeLoginCommand username) "type".toList =
      some "login".toList := by
    rw [serializeLoginCommand_eq, extractJsonString_write_text (by decide) _ (by decide)]
    rfl
  have hname : extractJsonString (serializeLoginCommand username) "username".toList =
      some username := by
    rw [serializeLoginCommand_eq]
    exact extractJsonString_oneText (by decide) (by decide) (by decide) (by decide) hnul
  have hcommand : parseLoginCommand (serializeLoginCommand username) = some ⟨username⟩ := by
    simp only [parseLoginCommand, hname, Option.bind_eq_bind, Option.bind_some,
      if_neg hnonempty]
  simp only [parseClientMessage, htype, hcommand, Option.bind_eq_bind, Option.bind_some, if_true,
    Option.map_some]

theorem positionToAlgebraic_ne_nil (pos : Position) : Io.positionToAlgebraic pos ≠ [] := by
  rw [Io.positionToAlgebraic]
  split
  · decide
  · exact List.cons_ne_nil _ _

theorem parseClientMessage_serializeMove {source destination : Position}
    (hsource : Io.OnStandardBoard source) (hdestination : Io.OnStandardBoard destination) :
    parseClientMessage (serializeMoveCommand (Io.positionToAlgebraic source)
        (Io.positionToAlgebraic destination)) =
      some (.move ⟨Io.positionToAlgebraic source, Io.positionToAlgebraic destination⟩) := by
  have hfields : EventFields
      [("type".toList, .text "move".toList), ("from".toList, .text (Io.positionToAlgebraic source)),
        ("to".toList, .text (Io.positionToAlgebraic destination))] := by
    have hsent := sendable_positionToAlgebraic hsource
    have hsent' := sendable_positionToAlgebraic hdestination
    constructor
    · simp [eventKeys]
    · simp [hsent, hsent']
      decide
  have hcommand : parseMoveCommand (serializeMoveCommand (Io.positionToAlgebraic source)
      (Io.positionToAlgebraic destination)) =
        some ⟨Io.positionToAlgebraic source, Io.positionToAlgebraic destination⟩ := by
    rw [parseMoveCommand, serializeMoveCommand_eq, hfields.extractString (by decide) rfl,
      hfields.extractString (by decide) rfl]
    simp [positionToAlgebraic_ne_nil]
  rw [parseClientMessage, hcommand, serializeMoveCommand_eq,
    hfields.extractString (by decide) rfl]
  rfl

theorem parseClientMessage_serializeJump {square : Position} (h : Io.OnStandardBoard square) :
    parseClientMessage (serializeJumpCommand (Io.positionToAlgebraic square)) =
      some (.jump ⟨Io.positionToAlgebraic square⟩) := by
  have hfields : EventFields
      [("type".toList, .text "jump".toList),
        ("square".toList, .text (Io.positionToAlgebraic square))] := by
    have hsent := sendable_positionToAlgebraic h
    constructor
    · simp [eventKeys]
    · simp [hsent]
      decide
  have hcommand : parseJumpCommand (serializeJumpCommand (Io.positionToAlgebraic square)) =
      some ⟨Io.positionToAlgebraic square⟩ := by
    rw [parseJumpCommand, serializeJumpCommand_eq, hfields.extractString (by decide) rfl]
    simp [positionToAlgebraic_ne_nil]
  rw [parseClientMessage, hcommand, serializeJumpCommand_eq,
    hfields.extractString (by decide) rfl]
  rfl

/-- Every command of a client is read as it was sent. -/
theorem clientCommands_readBack :
    (∀ username : StdString, username ≠ [] → '\x00' ∉ username →
      parseClientMessage (serializeLoginCommand username) = some (.login ⟨username⟩)) ∧
    (∀ source destination : Position, Io.OnStandardBoard source →
      Io.OnStandardBoard destination → ∃ command : MoveCommand,
        parseClientMessage (serializeMoveCommand (Io.positionToAlgebraic source)
            (Io.positionToAlgebraic destination)) = some (.move command) ∧
          Io.algebraicToPosition command.source = source ∧
          Io.algebraicToPosition command.destination = destination) ∧
    (∀ square : Position, Io.OnStandardBoard square → ∃ command : JumpCommand,
      parseClientMessage (serializeJumpCommand (Io.positionToAlgebraic square)) =
          some (.jump command) ∧
        Io.algebraicToPosition command.square = square) ∧
    parseClientMessage serializeJoinQueueCommand = some .joinQueue ∧
    parseClientMessage serializeLeaveQueueCommand = some .leaveQueue := by
  refine ⟨fun username ↦ parseClientMessage_serializeLogin, ?_, ?_, by decide, by decide⟩
  · intro source destination hsource hdestination
    exact ⟨_, parseClientMessage_serializeMove hsource hdestination,
      Io.algebraicToPosition_positionToAlgebraic hsource,
      Io.algebraicToPosition_positionToAlgebraic hdestination⟩
  · intro square hsquare
    exact ⟨_, parseClientMessage_serializeJump hsquare,
      Io.algebraicToPosition_positionToAlgebraic hsquare⟩

end KongFuChess.Network
