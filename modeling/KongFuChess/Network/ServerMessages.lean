import KongFuChess.Engine.GameEngine
import KongFuChess.Network.JsonObject

/-!
# The messages of the server

The game events as they are sent to the clients, and how a client reads them.
-/

namespace KongFuChess.Network

open Model Realtime Events Engine

namespace Protocol

/-- The type and colour of a label are written to the two variables; the result says whether the
label was complete. -/
def parsePieceLabel (label : StdString) (type : PieceType) (color : Color) :
    Bool × PieceType × Color :=
  match label with
  | [colorChar, typeChar] =>
    if colorChar ≠ 'w' ∧ colorChar ≠ 'b' then (false, type, color)
    else
      let color := if colorChar = 'w' then Color.white else .black
      match typeChar with
      | 'K' => (true, .king, color)
      | 'Q' => (true, .queen, color)
      | 'R' => (true, .rook, color)
      | 'B' => (true, .bishop, color)
      | 'N' => (true, .knight, color)
      | 'P' => (true, .pawn, color)
      | _ => (false, type, color)
  | _ => (false, type, color)

def colorFromLabel (label : StdString) : Color := if label = "black".toList then .black else .white

def colorLabel (color : Color) : StdString :=
  if color = .white then "white".toList else "black".toList

def serializeGameStarted (started : GameStarted) : StdString :=
  "\x7b\"type\":\"game_started\"".toList ++ ",\"white\":".toList ++
    quoteJsonString started.whiteUser ++ ",\"black\":".toList ++
    quoteJsonString started.blackUser ++ ",\"port\":".toList ++ Io.decimal started.port ++
    "\x7d".toList

def serializeMoveStarted (event : MoveStartedEvent) : StdString :=
  "\x7b\"type\":\"move_started\"".toList ++ ",\"timestamp_ms\":".toList ++
    Io.decimal event.timestampMs ++ ",\"piece\":".toList ++
    quoteJsonString (MoveLog.pieceLabel event.pieceType event.pieceColor) ++
    ",\"from\":".toList ++ quoteJsonString (Io.positionToAlgebraic event.fromPos) ++
    ",\"to\":".toList ++ quoteJsonString (Io.positionToAlgebraic event.toPos) ++ "\x7d".toList

def serializeJumpStarted (event : JumpStartedEvent) : StdString :=
  "\x7b\"type\":\"jump_started\"".toList ++ ",\"timestamp_ms\":".toList ++
    Io.decimal event.timestampMs ++ ",\"piece\":".toList ++
    quoteJsonString (MoveLog.pieceLabel event.pieceType event.pieceColor) ++
    ",\"square\":".toList ++ quoteJsonString (Io.positionToAlgebraic event.square) ++ "\x7d".toList

def serializeCompletedMove (event : CompletedMoveEvent) : StdString :=
  "\x7b\"type\":\"move_completed\"".toList ++ ",\"timestamp_ms\":".toList ++
    Io.decimal event.timestampMs ++ ",\"piece\":".toList ++
    quoteJsonString (MoveLog.pieceLabel event.pieceType event.pieceColor) ++
    ",\"from\":".toList ++ quoteJsonString (Io.positionToAlgebraic event.fromPos) ++
    ",\"to\":".toList ++ quoteJsonString (Io.positionToAlgebraic event.toPos) ++
    (if event.capturedType ≠ .empty then
      ",\"captured\":".toList ++
        quoteJsonString (MoveLog.pieceLabel event.capturedType event.capturedColor)
    else []) ++ "\x7d".toList

def serializeJumpCapture (event : JumpCaptureEvent) : StdString :=
  "\x7b\"type\":\"jump_capture\"".toList ++ ",\"timestamp_ms\":".toList ++
    Io.decimal event.timestampMs ++ ",\"jumper\":".toList ++
    quoteJsonString (MoveLog.pieceLabel event.jumperType event.jumperColor) ++
    ",\"victim\":".toList ++
    quoteJsonString (MoveLog.pieceLabel event.victimType event.victimColor) ++
    ",\"jump_square\":".toList ++ quoteJsonString (Io.positionToAlgebraic event.jumpSquare) ++
    ",\"victim_from\":".toList ++ quoteJsonString (Io.positionToAlgebraic event.victimFrom) ++
    ",\"victim_to\":".toList ++ quoteJsonString (Io.positionToAlgebraic event.victimTo) ++
    "\x7d".toList

def serializeGameEnded (event : GameEnded) : StdString :=
  "\x7b\"type\":\"game_ended\",\"winner\":".toList ++ quoteJsonString (colorLabel event.winner) ++
    "\x7d".toList

end Protocol

open Protocol

def serializeServerEvent : GameEvent → StdString
  | .gameStarted event => serializeGameStarted event
  | .moveStarted event => serializeMoveStarted event
  | .completedMove event => serializeCompletedMove event
  | .jumpStarted event => serializeJumpStarted event
  | .jumpCapture event => serializeJumpCapture event
  | .gameEnded event => serializeGameEnded event

inductive ServerMessageType
  | unknown
  | loginOk
  | error
  | queueJoined
  | queueLeft
  | matchFound
  | gameStarted
  | moveStarted
  | moveCompleted
  | jumpStarted
  | jumpCapture
  | gameEnded
  | queueTimeout
  | playerDisconnected
  | playerReconnected
deriving DecidableEq, Repr

/-- The names of the message types, in the order in which they are tried. -/
def serverMessageTypes : List (StdString × ServerMessageType) :=
  [("login_ok".toList, .loginOk), ("error".toList, .error),
    ("queue_joined".toList, .queueJoined), ("queue_left".toList, .queueLeft),
    ("match_found".toList, .matchFound), ("game_started".toList, .gameStarted),
    ("move_started".toList, .moveStarted), ("move_completed".toList, .moveCompleted),
    ("jump_started".toList, .jumpStarted), ("jump_capture".toList, .jumpCapture),
    ("game_ended".toList, .gameEnded), ("queue_timeout".toList, .queueTimeout),
    ("player_disconnected".toList, .playerDisconnected),
    ("player_reconnected".toList, .playerReconnected)]

def parseServerMessageType (json : StdString) : ServerMessageType :=
  match extractJsonString json "type".toList with
  | none => .unknown
  | some type => (serverMessageTypes.lookup type).getD .unknown

def parseGameStartedMessage (json : StdString) : Option GameStarted := do
  if parseServerMessageType json ≠ .gameStarted then none
  else
    let white ← extractJsonString json "white".toList
    let black ← extractJsonString json "black".toList
    let port ← extractJsonInt json "port".toList
    some { whiteUser := white, blackUser := black, port := port }

/-- A label that has to be complete; the fields it sets start from their defaults. -/
def requirePieceLabel (label : StdString) : Option (PieceType × Color) :=
  match parsePieceLabel label .empty .white with
  | (true, type, color) => some (type, color)
  | (false, _, _) => none

/-- A square that has to be valid. -/
def requireSquare (square : StdString) : Option Position :=
  let pos := Io.algebraicToPosition square
  if pos.row < 0 then none else some pos

def parseMoveStarted (json : StdString) : Option MoveStartedEvent := do
  let timestamp ← extractJsonInt json "timestamp_ms".toList
  let piece ← extractJsonString json "piece".toList
  let source ← extractJsonString json "from".toList
  let destination ← extractJsonString json "to".toList
  let (pieceType, pieceColor) ← requirePieceLabel piece
  let fromPos ← requireSquare source
  let toPos ← requireSquare destination
  some
    { timestampMs := timestamp
      pieceType := pieceType
      pieceColor := pieceColor
      fromPos := fromPos
      toPos := toPos }

def parseJumpStarted (json : StdString) : Option JumpStartedEvent := do
  let timestamp ← extractJsonInt json "timestamp_ms".toList
  let piece ← extractJsonString json "piece".toList
  let square ← extractJsonString json "square".toList
  let (pieceType, pieceColor) ← requirePieceLabel piece
  let pos ← requireSquare square
  some
    { timestampMs := timestamp
      pieceType := pieceType
      pieceColor := pieceColor
      square := pos }

def parseCompletedMove (json : StdString) : Option CompletedMoveEvent := do
  let timestamp ← extractJsonInt json "timestamp_ms".toList
  let piece ← extractJsonString json "piece".toList
  let source ← extractJsonString json "from".toList
  let destination ← extractJsonString json "to".toList
  let (pieceType, pieceColor) ← requirePieceLabel piece
  let fromPos ← requireSquare source
  let toPos ← requireSquare destination
  -- An incomplete label may still have set the colour.
  let (capturedType, capturedColor) :=
    match extractJsonString json "captured".toList with
    | some captured =>
      let (complete, type, color) := parsePieceLabel captured .empty .white
      (if complete then type else .empty, color)
    | none => (PieceType.empty, Color.white)
  some
    { timestampMs := timestamp
      pieceType := pieceType
      pieceColor := pieceColor
      fromPos := fromPos
      toPos := toPos
      capturedType := capturedType
      capturedColor := capturedColor }

def parseJumpCapture (json : StdString) : Option JumpCaptureEvent := do
  let timestamp ← extractJsonInt json "timestamp_ms".toList
  let jumper ← extractJsonString json "jumper".toList
  let victim ← extractJsonString json "victim".toList
  let jumpSquare ← extractJsonString json "jump_square".toList
  let victimFrom ← extractJsonString json "victim_from".toList
  let victimTo ← extractJsonString json "victim_to".toList
  let (jumperType, jumperColor) ← requirePieceLabel jumper
  let (victimType, victimColor) ← requirePieceLabel victim
  let jumpPos ← requireSquare jumpSquare
  let fromPos ← requireSquare victimFrom
  let toPos ← requireSquare victimTo
  some
    { timestampMs := timestamp
      jumpSquare := jumpPos
      jumperType := jumperType
      jumperColor := jumperColor
      victimType := victimType
      victimColor := victimColor
      victimFrom := fromPos
      victimTo := toPos }

def parseServerGameEvent (json : StdString) : Option GameEvent :=
  match parseServerMessageType json with
  | .gameStarted => (parseGameStartedMessage json).map .gameStarted
  | .moveStarted => (parseMoveStarted json).map .moveStarted
  | .jumpStarted => (parseJumpStarted json).map .jumpStarted
  | .moveCompleted => (parseCompletedMove json).map .completedMove
  | .jumpCapture => (parseJumpCapture json).map .jumpCapture
  | .gameEnded => (extractJsonString json "winner".toList).map fun winner ↦
      .gameEnded { winner := colorFromLabel winner }
  | _ => none

end KongFuChess.Network
