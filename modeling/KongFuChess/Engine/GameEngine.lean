import KongFuChess.Engine.MoveLog
import KongFuChess.Rules.Movement

/-!
# The game engine

The engine owns the board, the arbiter, the move log and the premoves. Its event bus is modelled
by the list of the events published on it, with `none` for an engine without a bus. Premoves are
looked up by square only, so the ordered map of the program is a partial function.
-/

namespace KongFuChess.Events

open Model Realtime

structure GameStarted where
  whiteUser : StdString
  blackUser : StdString
  port : ℤ := 0
deriving DecidableEq, Repr

structure GameEnded where
  winner : Color
deriving DecidableEq, Repr

inductive GameEvent
  | gameStarted (event : GameStarted)
  | completedMove (event : CompletedMoveEvent)
  | jumpCapture (event : JumpCaptureEvent)
  | gameEnded (event : GameEnded)
  | moveStarted (event : MoveStartedEvent)
  | jumpStarted (event : JumpStartedEvent)
deriving DecidableEq, Repr

/-- The event published for a resolution. -/
def GameEvent.ofResolution : MoveResolution → GameEvent
  | .completedMove event => .completedMove event
  | .jumpCapture event => .jumpCapture event

end KongFuChess.Events

namespace KongFuChess.Engine

open Model Realtime Rules Events

structure Premove where
  fromPos : Position
  toPos : Position
deriving DecidableEq, Repr

structure GameEngine where
  board : Board
  arbiter : RealTimeArbiter := {}
  moveLog : MoveLog := {}
  isGameOver : Bool := false
  winner : Option Color := none
  premoves : Position → Option Premove := fun _ ↦ none
  nextMotionId : ℕ := 0
  eventBus : Option (List GameEvent) := none

namespace GameEngine

def reset (engine : GameEngine) : GameEngine :=
  { engine with
    arbiter := engine.arbiter.clear
    nextMotionId := 0
    premoves := fun _ ↦ none
    isGameOver := false
    winner := none
    moveLog := engine.moveLog.clear }

def applyRemoteGameEnded (engine : GameEngine) (winner : Color) : GameEngine :=
  { engine with isGameOver := true, winner := some winner }

def elapsedMs (engine : GameEngine) : ℤ := engine.arbiter.elapsedMs

def activeMotions (engine : GameEngine) : List Motion := engine.arbiter.activeMotions

/-- Publish an event if a bus is attached. -/
def publish (engine : GameEngine) (event : GameEvent) : GameEngine :=
  { engine with eventBus := engine.eventBus.map (· ++ [event]) }

def isBusyAt (engine : GameEngine) (pos : Position) : Bool :=
  engine.activeMotions.any fun motion ↦ motion.source = pos

def hasPremoveAt (engine : GameEngine) (source : Position) : Bool :=
  (engine.premoves source).isSome

def isActiveMoveStartTick (engine : GameEngine) (fromPos : Position) : Bool :=
  engine.activeMotions.any fun motion ↦
    motion.type = .move && motion.source = fromPos && motion.startedAtMs = engine.elapsedMs

def getActiveMoveDestination (engine : GameEngine) (fromPos : Position) : Option Position :=
  (engine.activeMotions.find? fun motion ↦
    motion.type = .move && motion.source = fromPos).map (·.destination)

/-- The motion a move request adds. -/
def newMove (engine : GameEngine) (fromPos toPos : Position) : Motion :=
  let piece := engine.board.cell fromPos
  { motionId := engine.nextMotionId
    source := fromPos
    destination := toPos
    type := .move
    startedAtMs := engine.elapsedMs
    durationMs := distance fromPos toPos * GameConfig.kMoveDurationMs
    pieceType := piece.type
    pieceColor := piece.color }

def moveStartedEvent (engine : GameEngine) (fromPos toPos : Position) : MoveStartedEvent :=
  let piece := engine.board.cell fromPos
  { timestampMs := engine.elapsedMs
    pieceType := piece.type
    pieceColor := piece.color
    fromPos := fromPos
    toPos := toPos }

/-- The motion a jump request adds. -/
def newJump (engine : GameEngine) (pos : Position) : Motion :=
  let piece := engine.board.cell pos
  { motionId := engine.nextMotionId
    source := pos
    destination := ⟨-1, -1⟩
    type := .jump
    startedAtMs := engine.elapsedMs
    durationMs := GameConfig.kJumpDurationMs
    pieceType := piece.type
    pieceColor := piece.color }

def jumpStartedEvent (engine : GameEngine) (pos : Position) : JumpStartedEvent :=
  let piece := engine.board.cell pos
  { timestampMs := engine.elapsedMs
    pieceType := piece.type
    pieceColor := piece.color
    square := pos }

/-- Add a motion under the next identifier and publish its start. -/
def start (engine : GameEngine) (motion : Motion) (event : GameEvent) : GameEngine :=
  { engine with
    arbiter := engine.arbiter.addMotion motion
    nextMotionId := engine.nextMotionId + 1 }.publish event

def requestMove (engine : GameEngine) (fromPos toPos : Position) : Bool × GameEngine :=
  if engine.isGameOver then (false, engine)
  else if engine.isBusyAt fromPos then (false, engine)
  else if !validateMove engine.board fromPos toPos then (false, engine)
  else
    (true, engine.start (engine.newMove fromPos toPos)
      (.moveStarted (engine.moveStartedEvent fromPos toPos)))

def requestJump (engine : GameEngine) (pos : Position) : Bool × GameEngine :=
  if engine.isGameOver then (false, engine)
  else if !engine.board.inBounds pos then (false, engine)
  else
    let piece := engine.board.cell pos
    if piece.isEmpty || piece.jumpCooldownRemainingMs > 0 || engine.isBusyAt pos then
      (false, engine)
    else (true, engine.start (engine.newJump pos) (.jumpStarted (engine.jumpStartedEvent pos)))

def queuePremove (engine : GameEngine) (key fromPos toPos : Position) : GameEngine :=
  { engine with
    premoves := fun source ↦
      if source = key then some ⟨fromPos, toPos⟩ else engine.premoves source }

def clearPremoveAt (engine : GameEngine) (source : Position) : GameEngine :=
  { engine with premoves := fun key ↦ if key = source then none else engine.premoves key }

def tryExecutePremove (engine : GameEngine) (moveSource arrival : Position) : GameEngine :=
  match engine.premoves moveSource with
  | none => engine
  | some premove =>
    let engine := engine.clearPremoveAt moveSource
    if premove.fromPos ≠ arrival then engine
    else if !validateMove engine.board arrival premove.toPos then engine
    else (engine.requestMove arrival premove.toPos).2

def endGame (engine : GameEngine) (winnerColor : Color) : GameEngine :=
  { engine with isGameOver := true, winner := some winnerColor }.publish (.gameEnded ⟨winnerColor⟩)

/-- The loop over the completing moves; it stops at the first one that ends the game. -/
def checkGameOverLoop (engine : GameEngine) : List Motion → GameEngine
  | [] => engine
  | motion :: rest =>
    if motion.type ≠ .move then engine.checkGameOverLoop rest
    else
      let mover := engine.board.cell motion.source
      if mover.isEmpty then engine.checkGameOverLoop rest
      else
        let destination := engine.board.cell motion.destination
        if !destination.isEmpty && destination.type = .king &&
            !destination.isFriendly mover.color then
          engine.endGame mover.color
        else if isJumpActiveAt engine.activeMotions motion.destination && mover.type = .king then
          engine.endGame mover.color
        else engine.checkGameOverLoop rest

def checkGameOverFromCompletingMoves (engine : GameEngine) (completing : List Motion) :
    GameEngine :=
  if engine.isGameOver then engine else engine.checkGameOverLoop completing

def processMoveResolution (engine : GameEngine) : MoveResolution → GameEngine
  | .completedMove completed =>
    { engine with moveLog := engine.moveLog.recordCompletedMove completed }.publish
      (.completedMove completed)
  | .jumpCapture jumpCapture =>
    { engine with moveLog := engine.moveLog.recordJumpCapture jumpCapture }.publish
      (.jumpCapture jumpCapture)

def processMoveResolutions (engine : GameEngine) (resolutions : List MoveResolution) :
    GameEngine :=
  resolutions.foldl processMoveResolution engine

def processPremoveAfterAdvance (engine : GameEngine) (motion : Motion) : GameEngine :=
  if motion.type ≠ .move then engine
  else
    let sourceCell := engine.board.cell motion.source
    let destinationCell := engine.board.cell motion.destination
    if !sourceCell.isEmpty then engine.clearPremoveAt motion.source
    else if destinationCell.isEmpty then engine.clearPremoveAt motion.source
    else engine.tryExecutePremove motion.source motion.destination

def processPremovesAfterAdvance (engine : GameEngine) (completing : List Motion) : GameEngine :=
  if engine.isGameOver then engine else completing.foldl processPremoveAfterAdvance engine

def applyCooldownAfterArrival (engine : GameEngine) (motion : Motion) : GameEngine :=
  if motion.type ≠ .move then engine
  else if !engine.board.inBounds motion.destination then engine
  else
    let piece := engine.board.cell motion.destination
    if piece.isEmpty then engine
    else if engine.isBusyAt motion.destination then engine
    else
      { engine with
        board := engine.board.setCell motion.destination
          (piece.setMoveCooldown GameConfig.kMoveCooldownMs) }

def applyCooldownAfterArrivals (engine : GameEngine) (completing : List Motion) : GameEngine :=
  completing.foldl applyCooldownAfterArrival engine

/-- The arbiter's share of `advanceTime`, with the resolutions it returns. -/
def advanceArbiter (engine : GameEngine) (ms : ℤ) : GameEngine × List MoveResolution :=
  let (arbiter, board, resolutions) := engine.arbiter.advanceTime ms engine.board
  ({ engine with arbiter := arbiter, board := board }, resolutions)

def advanceTime (engine : GameEngine) (ms : ℤ) : GameEngine :=
  let futureElapsed := engine.elapsedMs + ms
  let completing := completingMoves engine.activeMotions futureElapsed
  let engine := engine.checkGameOverFromCompletingMoves completing
  let (engine, resolutions) := engine.advanceArbiter ms
  let engine := engine.processMoveResolutions resolutions
  let engine := engine.processPremovesAfterAdvance completing
  engine.applyCooldownAfterArrivals completing

end GameEngine

end KongFuChess.Engine
