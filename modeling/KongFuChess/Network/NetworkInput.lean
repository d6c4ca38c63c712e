import KongFuChess.Engine.Run
import KongFuChess.Network.ClientCommands
import KongFuChess.Online.SessionManager

/-!
# Commands of the players

The host performs the commands that its server has queued. Whether a player may move a piece is
decided only then: the connection must hold the colour of the piece on the square that the command
names. Whatever the rest of the command is, the engine refuses it or starts a motion of that piece.
-/

namespace KongFuChess.Network

open Model Realtime Rules Engine Session Matchmaking

structure QueuedCommand where
  connectionId : ConnectionId
  command : ClientCommand
deriving DecidableEq, Repr

/-- The input handler of the program holds references to the session and to the engine. -/
structure NetworkInputHandler where
  session : SessionManager
  gameEngine : GameEngine

namespace NetworkInputHandler

def canControlSquare (input : NetworkInputHandler) (connectionId : ConnectionId)
    (square : Position) : Bool :=
  match input.session.colorFor connectionId with
  | none => false
  | some playerColor =>
    let board := input.gameEngine.board
    if !board.inBounds square then false
    else
      let piece := board.cell square
      if piece.isEmpty then false else piece.color = playerColor

def handleMoveAt (input : NetworkInputHandler) (connectionId : ConnectionId)
    (fromPos toPos : Position) : Bool × GameEngine :=
  if !input.canControlSquare connectionId fromPos then (false, input.gameEngine)
  else input.gameEngine.requestMove fromPos toPos

def handleJumpAt (input : NetworkInputHandler) (connectionId : ConnectionId) (square : Position) :
    Bool × GameEngine :=
  if !input.canControlSquare connectionId square then (false, input.gameEngine)
  else input.gameEngine.requestJump square

def handleMove (input : NetworkInputHandler) (connectionId : ConnectionId)
    (source destination : StdString) : Bool × GameEngine :=
  let fromPos := Io.algebraicToPosition source
  let toPos := Io.algebraicToPosition destination
  if fromPos.row < 0 ∨ toPos.row < 0 then (false, input.gameEngine)
  else input.handleMoveAt connectionId fromPos toPos

def handleJump (input : NetworkInputHandler) (connectionId : ConnectionId) (square : StdString) :
    Bool × GameEngine :=
  let squarePos := Io.algebraicToPosition square
  if squarePos.row < 0 then (false, input.gameEngine)
  else input.handleJumpAt connectionId squarePos

/-- The body of the loop of `processNetworkCommands`; it drops the answers. -/
def processNetworkCommand (input : NetworkInputHandler) (queued : QueuedCommand) : GameEngine :=
  match queued.command with
  | .login _ => input.gameEngine
  | .joinQueue => input.gameEngine
  | .leaveQueue => input.gameEngine
  | .move command => (input.handleMove queued.connectionId command.source command.destination).2
  | .jump command => (input.handleJump queued.connectionId command.square).2

end NetworkInputHandler

/-- The squares that a command names, the one of its piece first. -/
def ClientCommand.squares : ClientCommand → List StdString
  | .login _ => []
  | .joinQueue => []
  | .leaveQueue => []
  | .move command => [command.source, command.destination]
  | .jump command => [command.square]

/-- The text is the name of a square of the board. -/
def NamesSquare (board : Board) (text : StdString) : Prop :=
  ∃ pos, Io.OnStandardBoard pos ∧ text = Io.positionToAlgebraic pos ∧ board.inBounds pos = true

theorem namesSquare_of_inBounds {board : Board} {text : StdString}
    (h : board.inBounds (Io.algebraicToPosition text) = true) : NamesSquare board text := by
  rcases Io.algebraicToPosition_cases text with hnone | ⟨hsquare, hname⟩
  · rw [hnone, Board.inBounds_iff] at h
    exact absurd h.1 (by decide)
  · exact ⟨_, hsquare, hname.symm, h⟩

namespace NetworkInputHandler

/-- The player of the connection may move the piece on the square. -/
structure Controls (input : NetworkInputHandler) (connectionId : ConnectionId) (square : Position) :
    Prop where
  occupied : (input.gameEngine.board.cell square).isEmpty = false
  color : input.session.colorFor connectionId = some (input.gameEngine.board.cell square).color

theorem canControlSquare_iff (input : NetworkInputHandler) (connectionId : ConnectionId)
    (square : Position) :
    input.canControlSquare connectionId square = true ↔ input.Controls connectionId square := by
  have hcontrols : input.Controls connectionId square ↔
      (input.gameEngine.board.cell square).isEmpty = false ∧
        input.session.colorFor connectionId = some (input.gameEngine.board.cell square).color :=
    ⟨fun h ↦ ⟨h.occupied, h.color⟩, fun h ↦ ⟨h.1, h.2⟩⟩
  rw [hcontrols, canControlSquare]
  cases hcolor : input.session.colorFor connectionId with
  | none => simp
  | some playerColor =>
    simp only [Option.some.injEq, eq_comm (a := playerColor)]
    cases hbounds : input.gameEngine.board.inBounds square with
    | false => simp [Board.cell_of_not_inBounds _ hbounds]
    | true => cases (input.gameEngine.board.cell square).isEmpty <;> simp

/-- What a command does that is not refused. -/
structure Starts (input : NetworkInputHandler) (queued : QueuedCommand) (motion : Motion) :
    Prop where
  named : ∀ square ∈ queued.command.squares, NamesSquare input.gameEngine.board square
  source : queued.command.squares.head?.map Io.algebraicToPosition = some motion.source
  controls : input.Controls queued.connectionId motion.source
  type : motion.pieceType = (input.gameEngine.board.cell motion.source).type
  color : motion.pieceColor = (input.gameEngine.board.cell motion.source).color

theorem handleMove_cases (input : NetworkInputHandler) (connectionId : ConnectionId)
    (command : MoveCommand) :
    (input.handleMove connectionId command.source command.destination).2 = input.gameEngine ∨
      ∃ motion event, (input.handleMove connectionId command.source command.destination).2 =
          input.gameEngine.start motion event ∧
        input.Starts ⟨connectionId, .move command⟩ motion := by
  rw [handleMove, handleMoveAt]
  split
  · exact .inl rfl
  split
  · exact .inl rfl
  rename_i hcontrols
  rw [Bool.not_eq_true', Bool.not_eq_false, canControlSquare_iff] at hcontrols
  rcases input.gameEngine.requestMove_cases (Io.algebraicToPosition command.source)
    (Io.algebraicToPosition command.destination) with heq | ⟨haccepted, heq⟩
  · rw [heq]
    exact .inl rfl
  · rw [heq]
    have hvalid := validated_of_validateMove haccepted.valid
    refine .inr ⟨_, _, rfl, ?_, rfl, hcontrols, rfl, rfl⟩
    intro square hsquare
    rw [ClientCommand.squares, List.mem_cons, List.mem_singleton] at hsquare
    rcases hsquare with rfl | rfl
    · exact namesSquare_of_inBounds hvalid.inBounds_from
    · exact namesSquare_of_inBounds hvalid.inBounds_to

theorem handleJump_cases (input : NetworkInputHandler) (connectionId : ConnectionId)
    (command : JumpCommand) :
    (input.handleJump connectionId command.square).2 = input.gameEngine ∨
      ∃ motion event, (input.handleJump connectionId command.square).2 =
          input.gameEngine.start motion event ∧
        input.Starts ⟨connectionId, .jump command⟩ motion := by
  rw [handleJump, handleJumpAt]
  split
  · exact .inl rfl
  split
  · exact .inl rfl
  rename_i hcontrols
  rw [Bool.not_eq_true', Bool.not_eq_false, canControlSquare_iff] at hcontrols
  rcases input.gameEngine.requestJump_cases (Io.algebraicToPosition command.square) with
    heq | ⟨haccepted, heq⟩
  · rw [heq]
    exact .inl rfl
  · rw [heq]
    refine .inr ⟨_, _, rfl, ?_, rfl, hcontrols, rfl, rfl⟩
    intro square hsquare
    rw [List.mem_singleton.1 hsquare]
    exact namesSquare_of_inBounds haccepted.inBounds

/-- A command is dropped, or it asks the engine for a move or for a jump. -/
theorem processNetworkCommand_induction (input : NetworkInputHandler) (queued : QueuedCommand)
    {P : GameEngine → Prop} (hdropped : P input.gameEngine)
    (hmove : ∀ fromPos toPos, P (input.gameEngine.requestMove fromPos toPos).2)
    (hjump : ∀ pos, P (input.gameEngine.requestJump pos).2) :
    P (input.processNetworkCommand queued) := by
  unfold processNetworkCommand
  split
  · exact hdropped
  · exact hdropped
  · exact hdropped
  · unfold handleMove handleMoveAt
    dsimp only
    split
    · exact hdropped
    · split
      · exact hdropped
      · exact hmove _ _
  · unfold handleJump handleJumpAt
    dsimp only
    split
    · exact hdropped
    · split
      · exact hdropped
      · exact hjump _

/-- A command changes nothing, or it starts a motion of a piece of the player's own colour. -/
theorem processNetworkCommand_cases (input : NetworkInputHandler) (queued : QueuedCommand) :
    input.processNetworkCommand queued = input.gameEngine ∨
      ∃ motion event, input.processNetworkCommand queued = input.gameEngine.start motion event ∧
        input.Starts queued motion := by
  obtain ⟨connectionId, command⟩ := queued
  cases command with
  | login | joinQueue | leaveQueue => exact .inl rfl
  | move command => exact input.handleMove_cases connectionId command
  | jump command => exact input.handleJump_cases connectionId command

/-- A command from a connection without a colour, or with a text that names no square of the board,
changes nothing. -/
theorem processNetworkCommand_of_refused (input : NetworkInputHandler) (queued : QueuedCommand)
    (h : input.session.colorFor queued.connectionId = none ∨
      ∃ square ∈ queued.command.squares, ¬ NamesSquare input.gameEngine.board square) :
    input.processNetworkCommand queued = input.gameEngine := by
  refine (input.processNetworkCommand_cases queued).resolve_right ?_
  rintro ⟨motion, event, -, hstarts⟩
  rcases h with hnone | ⟨square, hmem, hnot⟩
  · exact Option.some_ne_none _ (hstarts.controls.color.symm.trans hnone)
  · exact hnot (hstarts.named square hmem)

end NetworkInputHandler

end KongFuChess.Network
