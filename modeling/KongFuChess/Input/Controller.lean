import KongFuChess.Engine.Run
import KongFuChess.Rules.Reads

/-!
# The mouse

The controller turns clicks and jumps at pixels of the window into requests to the engine. It
remembers a selected square between clicks; the default position stands for no selection. In a match
its requests are dispatched over the connection to the server, and repeated on the local engine
unless this process hosts the match, whose engine hears of them from the server. Without a dispatch,
as in the text tests, they go to the local engine at once.
-/

namespace KongFuChess.Input

open Model Realtime Rules Engine

namespace GameConfig

def kClickCellSize : ℤ := 100

def kBoardOriginX : ℤ := 11

def kBoardOriginY : ℤ := 14

end GameConfig

/-- The adjusted pixel is not negative where it is divided. -/
def cellIndex (pixel origin cellSize : ℤ) : ℤ :=
  let adjusted := pixel - origin
  if adjusted < 0 then -1 else adjusted / cellSize

namespace BoardMapper

def toPosition (x y : ℤ) : Position :=
  if x < 0 ∨ y < 0 then ⟨-1, -1⟩
  else
    let cellSize := GameConfig.kClickCellSize
    let row := cellIndex y GameConfig.kBoardOriginY cellSize
    let col := cellIndex x GameConfig.kBoardOriginX cellSize
    if row < 0 ∨ col < 0 then ⟨-1, -1⟩ else ⟨row, col⟩

end BoardMapper

/-- What the dispatch of a match captures: whether this process hosts the match, and which commands
the connection to the server takes. -/
structure Connection where
  isServerHost : Bool
  sendMove : Position → Position → Bool
  sendJump : Position → Bool

namespace Connection

def dispatchMove (connection : Connection) (engine : GameEngine) (fromPos toPos : Position) :
    Bool × GameEngine :=
  if !connection.sendMove fromPos toPos then (false, engine)
  else if !connection.isServerHost then (true, (engine.requestMove fromPos toPos).2)
  else (true, engine)

def dispatchJump (connection : Connection) (engine : GameEngine) (square : Position) :
    Bool × GameEngine :=
  if !connection.sendJump square then (false, engine)
  else if !connection.isServerHost then (true, (engine.requestJump square).2)
  else (true, engine)

end Connection

def canControlPiece (piece : Piece) (playerColor : Option Color) : Bool :=
  match playerColor with
  | none => true
  | some color => !piece.isEmpty && piece.color = color

structure Controller where
  dispatch : Option Connection := none
  selectedSquare : Position := ⟨-1, -1⟩

namespace Controller

def hasSelection (controller : Controller) : Bool := controller.selectedSquare.row ≥ 0

def clearSelection (controller : Controller) : Controller :=
  { controller with selectedSquare := ⟨-1, -1⟩ }

@[simp]
theorem hasSelection_clearSelection (controller : Controller) :
    controller.clearSelection.hasSelection = false := rfl

def select (controller : Controller) (square : Position) : Controller :=
  { controller with selectedSquare := square }

def requestMove (controller : Controller) (engine : GameEngine) (fromPos toPos : Position) :
    Bool × GameEngine :=
  match controller.dispatch with
  | some connection => connection.dispatchMove engine fromPos toPos
  | none => engine.requestMove fromPos toPos

def requestJump (controller : Controller) (engine : GameEngine) (square : Position) :
    Bool × GameEngine :=
  match controller.dispatch with
  | some connection => connection.dispatchJump engine square
  | none => engine.requestJump square

/-- A click on a second square while the selected piece is busy: a move that has just been started
takes the click as its premove. -/
def clickWhileBusy (engine : GameEngine) (selected clicked : Position) : GameEngine :=
  if engine.isActiveMoveStartTick selected then
    match engine.getActiveMoveDestination selected with
    | some destination => engine.queuePremove selected destination clicked
    | none => engine
  else engine

def handleClick (controller : Controller) (engine : GameEngine) (x y : ℤ)
    (playerColor : Option Color) : Controller × GameEngine :=
  if engine.isGameOver then (controller, engine)
  else
    let board := engine.board
    let clicked := BoardMapper.toPosition x y
    if clicked.row < 0 || !board.inBounds clicked then
      (if controller.hasSelection then controller.clearSelection else controller, engine)
    else
      let clickedPiece := board.cell clicked
      if !controller.hasSelection then
        if clickedPiece.isEmpty then (controller, engine)
        else if !canControlPiece clickedPiece playerColor then (controller, engine)
        else (controller.select clicked, engine)
      else
        let selectedPiece := board.cell controller.selectedSquare
        if !canControlPiece selectedPiece playerColor then (controller.clearSelection, engine)
        else if !clickedPiece.isEmpty && clickedPiece.color = selectedPiece.color then
          if !canControlPiece clickedPiece playerColor then (controller, engine)
          else (controller.select clicked, engine)
        else if engine.isBusyAt controller.selectedSquare then
          (controller.clearSelection, clickWhileBusy engine controller.selectedSquare clicked)
        else if clickedPiece.isEmpty then
          if validateMove board controller.selectedSquare clicked then
            (controller.clearSelection,
              (controller.requestMove engine controller.selectedSquare clicked).2)
          else (controller.clearSelection, engine)
        else if !validateMove board controller.selectedSquare clicked then (controller, engine)
        else
          let (accepted, engine) := controller.requestMove engine controller.selectedSquare clicked
          if !accepted then (controller, engine) else (controller.clearSelection, engine)

/-- The square of the jump is checked below only. -/
def handleJump (controller : Controller) (engine : GameEngine) (x y : ℤ)
    (playerColor : Option Color) : Controller × GameEngine :=
  let pos := BoardMapper.toPosition x y
  if pos.row < 0 then (controller, engine)
  else if !canControlPiece (engine.board.cell pos) playerColor then (controller, engine)
  else
    let (accepted, engine) := controller.requestJump engine pos
    if accepted then (controller.clearSelection, engine) else (controller, engine)

end Controller

end KongFuChess.Input
