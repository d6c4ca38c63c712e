import KongFuChess.Engine.Run
import KongFuChess.Network.Wire

/-!
# The client's copy of the game

A client has an engine of its own. It starts the moves and jumps that the server reports as
started, plays them with its own clock, and uses the reports of completed moves and captures only
to make up for reports it has missed.
-/

namespace KongFuChess.Network

open Model Realtime Events Engine

namespace ClientGameSync

def kSyncFrameMs : ℤ := 16

def kMaxSyncAdvanceMs : ℕ := 12000

def pieceAt (board : Board) (square : Position) (type : PieceType) (color : Color) : Bool :=
  if !board.inBounds square then false
  else
    let piece := board.cell square
    !piece.isEmpty && piece.type = type && piece.color = color

/-- Frames are played while motions are active, as long as some are left. -/
def advanceFrames : ℕ → GameEngine → GameEngine
  | 0, engine => engine
  | frames + 1, engine =>
    if engine.activeMotions.isEmpty then engine
    else advanceFrames frames (engine.advanceTime kSyncFrameMs)

/-- The loop stops when `kMaxSyncAdvanceMs` have been played, which is after 750 frames. -/
def advanceUntilIdle (engine : GameEngine) : GameEngine :=
  advanceFrames (kMaxSyncAdvanceMs / 16) engine

def startMove (engine : GameEngine) (fromPos toPos : Position) : GameEngine :=
  (engine.requestMove fromPos toPos).2

def startJump (engine : GameEngine) (square : Position) : GameEngine :=
  (engine.requestJump square).2

def syncCompletedMove (engine : GameEngine) (fromPos toPos : Position) (pieceType : PieceType)
    (pieceColor : Color) : GameEngine :=
  if pieceAt engine.board toPos pieceType pieceColor && !engine.isBusyAt fromPos then engine
  else if engine.isBusyAt fromPos || engine.isBusyAt toPos then engine
  else
    let (accepted, engine) := engine.requestMove fromPos toPos
    if !accepted then engine else advanceUntilIdle engine

def syncJumpCapture (engine : GameEngine) (jumpSquare : Position) : GameEngine :=
  if engine.isBusyAt jumpSquare then engine
  else
    let (accepted, engine) := engine.requestJump jumpSquare
    if !accepted then engine else advanceUntilIdle engine

/-- What the client does with an event it has read. -/
def applyEvent (engine : GameEngine) : GameEvent → Bool × GameEngine
  | .moveStarted started => (true, startMove engine started.fromPos started.toPos)
  | .jumpStarted started => (true, startJump engine started.square)
  | .completedMove move =>
    (true, syncCompletedMove engine move.fromPos move.toPos move.pieceType move.pieceColor)
  | .jumpCapture jump => (true, syncJumpCapture engine jump.jumpSquare)
  | .gameEnded ended => (true, engine.applyRemoteGameEnded ended.winner)
  | .gameStarted _ => (false, engine)

def applyMessage (json : StdString) (engine : GameEngine) : Bool × GameEngine :=
  match parseServerGameEvent json with
  | none => (false, engine)
  | some event => applyEvent engine event

end ClientGameSync

/-! ## The effect of an event -/

/-- The request that an event announces to have been accepted. -/
def requestOf : GameEvent → Option Op
  | .moveStarted started => some (.requestMove started.fromPos started.toPos)
  | .jumpStarted started => some (.requestJump started.square)
  | _ => none

/-- The report would be taken for one whose start was missed, and its motion would be repeated. -/
def takesFallback (client : GameEngine) : GameEvent → Bool
  | .completedMove move =>
    !(ClientGameSync.pieceAt client.board move.toPos move.pieceType move.pieceColor &&
        !client.isBusyAt move.fromPos) &&
      !(client.isBusyAt move.fromPos || client.isBusyAt move.toPos) &&
      client.accepts (.requestMove move.fromPos move.toPos)
  | .jumpCapture jump =>
    !client.isBusyAt jump.jumpSquare && client.accepts (.requestJump jump.jumpSquare)
  | _ => false

theorem applyMessage_serialize {event : GameEvent} (h : Nameable event) (client : GameEngine) :
    ClientGameSync.applyMessage (serializeServerEvent event) client =
      ClientGameSync.applyEvent client (received event) := by
  rw [ClientGameSync.applyMessage, parse_serialize h]

theorem applyEvent_start {event : GameEvent} {op : Op} (hop : requestOf event = some op)
    (client : GameEngine) :
    (ClientGameSync.applyEvent client (received event)).2 = client.step op := by
  cases event with
  | moveStarted started =>
    obtain rfl := Option.some.inj hop
    rfl
  | jumpStarted started =>
    obtain rfl := Option.some.inj hop
    rfl
  | gameStarted | completedMove | jumpCapture | gameEnded => simp [requestOf] at hop

/-- A report that takes no fallback changes nothing. -/
theorem applyEvent_report {event : GameEvent} (hop : requestOf event = none)
    (hended : ∀ winner, event ≠ .gameEnded ⟨winner⟩) {client : GameEngine}
    (h : takesFallback client event = false) :
    (ClientGameSync.applyEvent client (received event)).2 = client := by
  cases event with
  | moveStarted | jumpStarted => simp [requestOf] at hop
  | gameStarted => rfl
  | gameEnded ended => exact absurd rfl (hended ended.winner)
  | completedMove move =>
    simp only [takesFallback] at h
    simp only [received, ClientGameSync.applyEvent, ClientGameSync.syncCompletedMove]
    split
    · rfl
    · split
      · rfl
      · rename_i hpiece hbusy
        have hrefused : client.accepts (.requestMove move.fromPos move.toPos) = false := by
          simpa [hpiece, hbusy] using h
        simp [GameEngine.requestMove_of_refused hrefused]
  | jumpCapture jump =>
    simp only [takesFallback] at h
    simp only [received, ClientGameSync.applyEvent, ClientGameSync.syncJumpCapture]
    split
    · rfl
    · rename_i hbusy
      have hrefused : client.accepts (.requestJump jump.jumpSquare) = false := by
        simpa [hbusy] using h
      simp [GameEngine.requestJump_of_refused hrefused]

/-- Once its game is over, only another verdict changes the client. -/
theorem applyEvent_of_over {client : GameEngine} (hover : client.isGameOver = true)
    {event : GameEvent} (hended : ∀ winner, event ≠ .gameEnded ⟨winner⟩) :
    (ClientGameSync.applyEvent client (received event)).2 = client := by
  have hmove : ∀ fromPos toPos, client.requestMove fromPos toPos = (false, client) :=
    fun _ _ ↦ if_pos hover
  have hjump : ∀ pos, client.requestJump pos = (false, client) := fun _ ↦ if_pos hover
  cases event with
  | moveStarted started =>
    simp [received, ClientGameSync.applyEvent, ClientGameSync.startMove, hmove]
  | jumpStarted started =>
    simp [received, ClientGameSync.applyEvent, ClientGameSync.startJump, hjump]
  | completedMove move =>
    simp [received, ClientGameSync.applyEvent, ClientGameSync.syncCompletedMove, hmove]
  | jumpCapture jump =>
    simp [received, ClientGameSync.applyEvent, ClientGameSync.syncJumpCapture, hjump]
  | gameEnded ended => exact absurd rfl (hended ended.winner)
  | gameStarted => rfl

end KongFuChess.Network
