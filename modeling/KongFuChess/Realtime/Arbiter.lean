import KongFuChess.Model.Board
import Mathlib.Data.List.Sort

/-!
# The real-time arbiter

A motion is a move in flight or a jump. The arbiter keeps the active motions, and in each tick it
resolves every move whose time has come, in the order in which the moves were started, against the
board as the earlier arrivals of the same tick have left it.

Times are integers and motion identifiers natural numbers; the program's `int` values are taken as
exact.
-/

namespace KongFuChess.Realtime

open Model

inductive MotionType
  | move
  | jump
deriving DecidableEq, Repr

structure Motion where
  motionId : ℕ
  source : Position
  destination : Position
  type : MotionType
  startedAtMs : ℤ
  durationMs : ℤ
  pieceType : PieceType
  pieceColor : Color
deriving DecidableEq, Repr

def Motion.isExpired (motion : Motion) (currentTimeMs : ℤ) : Bool :=
  currentTimeMs ≥ motion.startedAtMs + motion.durationMs

structure CompletedMoveEvent where
  timestampMs : ℤ := 0
  pieceType : PieceType := .empty
  pieceColor : Color := .white
  fromPos : Position := default
  toPos : Position := default
  capturedType : PieceType := .empty
  capturedColor : Color := .white
deriving DecidableEq, Repr

structure JumpCaptureEvent where
  timestampMs : ℤ := 0
  jumpSquare : Position := default
  jumperType : PieceType := .empty
  jumperColor : Color := .white
  victimType : PieceType := .empty
  victimColor : Color := .white
  victimFrom : Position := default
  victimTo : Position := default
deriving DecidableEq, Repr

structure MoveStartedEvent where
  timestampMs : ℤ := 0
  pieceType : PieceType := .empty
  pieceColor : Color := .white
  fromPos : Position := default
  toPos : Position := default
deriving DecidableEq, Repr

structure JumpStartedEvent where
  timestampMs : ℤ := 0
  pieceType : PieceType := .empty
  pieceColor : Color := .white
  square : Position := default
deriving DecidableEq, Repr

/-- The `kind` tag of the program selects which of its two payloads is meaningful. -/
inductive MoveResolution
  | completedMove (completed : CompletedMoveEvent)
  | jumpCapture (jumpCapture : JumpCaptureEvent)
deriving DecidableEq, Repr

namespace GameConfig

def kMoveDurationMs : ℤ := 1000

def kJumpDurationMs : ℤ := 2000

def kMoveCooldownMs : ℤ := 1000

def kJumpCooldownMs : ℤ := 2000

end GameConfig

def decreaseAllCooldowns (board : Board) (ms : ℤ) : Board := board.map (·.decreaseCooldown ms)

def isJumpActiveAt (motions : List Motion) (pos : Position) : Bool :=
  motions.any fun motion ↦ motion.type = .jump && motion.source = pos

def squareArrivedThisTick (arrivedThisTick : List Position) (pos : Position) : Bool :=
  arrivedThisTick.any fun square ↦ square = pos

/-- The row on which a pawn of the given colour is promoted. -/
def lastRow (board : Board) (color : Color) : ℤ :=
  if color = .white then 0 else board.rows - 1

def promotePawnIfEligible (board : Board) (pos : Position) : Board :=
  let piece := board.cell pos
  if piece.type ≠ .pawn then board
  else if pos.row = lastRow board piece.color then board.setCell pos (piece.promote .queen)
  else board

def motionLess (a b : Motion) : Bool :=
  if a.startedAtMs ≠ b.startedAtMs then a.startedAtMs < b.startedAtMs
  else a.motionId < b.motionId

def motionArrivalMs (motion : Motion) : ℤ := motion.startedAtMs + motion.durationMs

/-- What the arrivals of one tick read and write. -/
structure Tick where
  board : Board
  arrivedThisTick : List Position
  resolutions : List MoveResolution

def resolveMoveArrival (activeMotions : List Motion) (tick : Tick) (motion : Motion) : Tick :=
  let board := tick.board
  if !board.inBounds motion.source then tick
  else
    let mover := board.cell motion.source
    if mover.isEmpty || mover.type ≠ motion.pieceType || mover.color ≠ motion.pieceColor then tick
    else
      let destination := board.cell motion.destination
      if !destination.isEmpty && destination.isFriendly mover.color then tick
      else if !destination.isEmpty && isJumpActiveAt activeMotions motion.destination then
        let jumper := board.cell motion.destination
        let event : JumpCaptureEvent :=
          { timestampMs := motionArrivalMs motion
            jumpSquare := motion.destination
            jumperType := jumper.type
            jumperColor := jumper.color
            victimType := motion.pieceType
            victimColor := motion.pieceColor
            victimFrom := motion.source
            victimTo := motion.destination }
        { tick with
          board := board.removePieceAt motion.source
          resolutions := tick.resolutions ++ [.jumpCapture event] }
      else if !destination.isEmpty &&
          squareArrivedThisTick tick.arrivedThisTick motion.destination then
        { tick with board := board.removePieceAt motion.source }
      else
        let event : CompletedMoveEvent :=
          { timestampMs := motionArrivalMs motion
            pieceType := motion.pieceType
            pieceColor := motion.pieceColor
            fromPos := motion.source
            toPos := motion.destination
            capturedType := if !destination.isEmpty then destination.type else .empty
            capturedColor := if !destination.isEmpty then destination.color else .white }
        let board := board.movePiece motion.source motion.destination
        let arrived := board.cell motion.destination
        let board :=
          if arrived.type = .pawn then board.setCell motion.destination arrived.markMoved
          else board
        { board := promotePawnIfEligible board motion.destination
          arrivedThisTick := tick.arrivedThisTick ++ [motion.destination]
          resolutions := tick.resolutions ++ [.completedMove event] }

def removeExpiredMotions (motions : List Motion) (type : MotionType) (currentTimeMs : ℤ) :
    List Motion :=
  motions.filter fun motion ↦ !(motion.type = type && motion.isExpired currentTimeMs)

/-- The moves among `motions` that have arrived by the given time. -/
def completingMoves (motions : List Motion) (currentTimeMs : ℤ) : List Motion :=
  motions.filter fun motion ↦ motion.type = .move && motion.isExpired currentTimeMs

/-- A jump that has come to its end puts its piece on the jump cooldown. -/
def landJump (currentTimeMs : ℤ) (board : Board) (motion : Motion) : Board :=
  if motion.type ≠ .jump || !motion.isExpired currentTimeMs then board
  else if !board.inBounds motion.source then board
  else
    let piece := board.cell motion.source
    if !piece.isEmpty then
      board.setCell motion.source (piece.setJumpCooldown GameConfig.kJumpCooldownMs)
    else board

structure RealTimeArbiter where
  activeMotions : List Motion := []
  elapsedMs : ℤ := 0
deriving DecidableEq, Repr

namespace RealTimeArbiter

def addMotion (arbiter : RealTimeArbiter) (motion : Motion) : RealTimeArbiter :=
  { arbiter with activeMotions := arbiter.activeMotions ++ [motion] }

/-- Resolve the given arrivals one after another. -/
def resolveArrivals (activeMotions : List Motion) (board : Board) (arrivals : List Motion) : Tick :=
  arrivals.foldl (resolveMoveArrival activeMotions)
    { board := board, arrivedThisTick := [], resolutions := [] }

def advanceTime (arbiter : RealTimeArbiter) (ms : ℤ) (board : Board) :
    RealTimeArbiter × Board × List MoveResolution :=
  let elapsedMs := arbiter.elapsedMs + ms
  let board := decreaseAllCooldowns board ms
  let completing := completingMoves arbiter.activeMotions elapsedMs
  let sorted := completing.insertionSort fun a b ↦ motionLess b a = false
  let tick := resolveArrivals arbiter.activeMotions board sorted
  let activeMotions :=
    if !completing.isEmpty then removeExpiredMotions arbiter.activeMotions .move elapsedMs
    else arbiter.activeMotions
  let board := activeMotions.foldl (landJump elapsedMs) tick.board
  ({ activeMotions := removeExpiredMotions activeMotions .jump elapsedMs, elapsedMs := elapsedMs },
    board, tick.resolutions)

def clear (_ : RealTimeArbiter) : RealTimeArbiter := { activeMotions := [], elapsedMs := 0 }

end RealTimeArbiter

end KongFuChess.Realtime
