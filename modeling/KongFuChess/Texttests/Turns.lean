import KongFuChess.Engine.Solo
import KongFuChess.Texttests.ScriptRunner

/-!
# Scripts that play in turns

A turn of a script is a click on a piece, a click on the square it is to go to, a wait and a print.
If every wait is long enough, the script plays ordinary chess moves one after another, and each
print shows the board after the moves so far: nothing is left of the real time but the rest that a
piece needs after its move.
-/

namespace KongFuChess.Texttests

open Model Realtime Rules Engine Input Io

structure Turn where
  fromX : ℤ
  fromY : ℤ
  toX : ℤ
  toY : ℤ
  ms : ℤ

namespace Turn

def commands (turn : Turn) : List ScriptCommand :=
  [.click turn.fromX turn.fromY, .click turn.toX turn.toY, .wait turn.ms, .printBoard]

def fromPos (turn : Turn) : Position := BoardMapper.toPosition turn.fromX turn.fromY

def toPos (turn : Turn) : Position := BoardMapper.toPosition turn.toX turn.toY

def play (board : Board) (turn : Turn) : Board := playMove board turn.fromPos turn.toPos turn.ms

/-- The move is legal, takes no king, and has the time that it takes. -/
structure Legal (board : Board) (turn : Turn) : Prop where
  valid : validateMove board turn.fromPos turn.toPos = true
  not_king : (board.cell turn.toPos).type ≠ .king
  waits : distance turn.fromPos turn.toPos * GameConfig.kMoveDurationMs ≤ turn.ms

instance (board : Board) (turn : Turn) : Decidable (turn.Legal board) :=
  decidable_of_iff
    (validateMove board turn.fromPos turn.toPos = true ∧ (board.cell turn.toPos).type ≠ .king ∧
      distance turn.fromPos turn.toPos * GameConfig.kMoveDurationMs ≤ turn.ms)
    ⟨fun h ↦ ⟨h.1, h.2.1, h.2.2⟩, fun h ↦ ⟨h.valid, h.not_king, h.waits⟩⟩

end Turn

/-! ## The clicks of a turn -/

section Clicks

variable {controller : Controller} {engine : GameEngine} {board : Board} {x y : ℤ}

/-- A click on a piece selects it. -/
theorem handleClick_select (hselection : controller.hasSelection = false)
    (hrest : engine.AtRest board) (hin : board.inBounds (BoardMapper.toPosition x y) = true)
    (hfull : (board.cell (BoardMapper.toPosition x y)).isEmpty = false) :
    controller.handleClick engine x y none =
      (controller.select (BoardMapper.toPosition x y), engine) := by
  have hrow := ((board.inBounds_iff _).1 hin).1
  obtain rfl := hrest.board_eq
  rw [Controller.handleClick, if_neg (by simp [hrest.not_over])]
  simp [hin, hfull, hselection, canControlPiece, hrow]

/-- A click on a square to which the selected piece may go requests the move. -/
theorem handleClick_move (hdispatch : controller.dispatch = none) {square : Position}
    (hrest : engine.AtRest board)
    (hvalid : validateMove board square (BoardMapper.toPosition x y) = true) :
    (controller.select square).handleClick engine x y none =
      ((controller.select square).clearSelection,
        (engine.requestMove square (BoardMapper.toPosition x y)).2) := by
  have hvalidated := validated_of_validateMove hvalid
  have hrow := ((board.inBounds_iff _).1 hvalidated.inBounds_to).1
  have hselected := ((board.inBounds_iff _).1 hvalidated.inBounds_from).1
  have hrequest := hrest.requestMove hvalid
  have hbusy := hrest.not_busy square
  have hcontroller : (controller.select square).requestMove engine square
      (BoardMapper.toPosition x y) = engine.requestMove square (BoardMapper.toPosition x y) := by
    rw [Controller.requestMove, Controller.select, hdispatch]
  have hfriend := hvalidated.not_friendly
  obtain rfl := hrest.board_eq
  simp only [Piece.isFriendly, Bool.and_eq_false_iff, Bool.not_eq_false'] at hfriend
  rw [Controller.handleClick, if_neg (by simp [hrest.not_over])]
  simp only [Controller.hasSelection, Controller.select] at hcontroller ⊢
  cases hempty : (engine.board.cell (BoardMapper.toPosition x y)).isEmpty with
  | true =>
    simp [hvalidated.inBounds_to, hrow, hselected, canControlPiece, hbusy, hvalid,
      hcontroller]
  | false =>
    have hcolor : (engine.board.cell (BoardMapper.toPosition x y)).color ≠
        (engine.board.cell square).color := by
      simpa [hempty] using hfriend
    simp [hvalidated.inBounds_to, hrow, hselected, canControlPiece, hbusy, hvalid,
      hcontroller, hcolor, hrequest]

end Clicks

/-! ## Turns as programs -/

/-- The runner waits for the first click of a turn. -/
structure Ready (board : Board) (runner : ScriptRunner) : Prop where
  no_dispatch : runner.controller.dispatch = none
  no_selection : runner.controller.hasSelection = false
  poised : runner.Poised
  atRest : runner.gameEngine.AtRest board

/-- A piece has been clicked. -/
structure Selected (board : Board) (square : Position) (runner : ScriptRunner) : Prop where
  no_dispatch : runner.controller.dispatch = none
  selected : ∃ before : Controller, runner.controller = before.select square
  poised : runner.Poised
  atRest : runner.gameEngine.AtRest board

/-- The move has been requested, of an engine at rest. -/
structure Requested (board : Board) (turn : Turn) (runner : ScriptRunner) : Prop where
  no_dispatch : runner.controller.dispatch = none
  no_selection : runner.controller.hasSelection = false
  poised : runner.Poised
  requested : ∃ engine : GameEngine, engine.AtRest board ∧
    runner.gameEngine = (engine.requestMove turn.fromPos turn.toPos).2

namespace Turn

open ScriptRunner

variable {board : Board} {turn : Turn}

theorem triple_first (h : turn.Legal board) :
    language.Triple (Ready board) [.click turn.fromX turn.fromY] []
      (Selected board turn.fromPos) := by
  have hvalidated := validated_of_validateMove h.valid
  apply Language.Triple.single
  intro runner hready
  have hclick := handleClick_select hready.no_selection hready.atRest hvalidated.inBounds_from
    hvalidated.occupied
  have heffect : language.effect runner (.click turn.fromX turn.fromY) =
      { runner with controller := runner.controller.select turn.fromPos } := by
    change (runner.perform (.click turn.fromX turn.fromY)).1 = _
    simp only [perform, hclick]
    rfl
  refine ⟨?_, rfl⟩
  have hpoised := keeps_poised runner (.click turn.fromX turn.fromY) hready.poised
  rw [heffect] at hpoised ⊢
  exact ⟨hready.no_dispatch, ⟨runner.controller, rfl⟩, hpoised, hready.atRest⟩

theorem triple_second (h : turn.Legal board) :
    language.Triple (Selected board turn.fromPos) [.click turn.toX turn.toY] []
      (Requested board turn) := by
  apply Language.Triple.single
  intro runner hselected
  obtain ⟨before, hbefore⟩ := hselected.selected
  have hdispatch : before.dispatch = none := by
    simpa [hbefore, Controller.select] using hselected.no_dispatch
  have hclick := handleClick_move hdispatch hselected.atRest h.valid
  have heffect : language.effect runner (.click turn.toX turn.toY) =
      { gameEngine := (runner.gameEngine.requestMove turn.fromPos turn.toPos).2
        controller := runner.controller.clearSelection } := by
    change (runner.perform (.click turn.toX turn.toY)).1 = _
    simp only [perform, hbefore, hclick]
    rfl
  refine ⟨?_, rfl⟩
  have hpoised := keeps_poised runner (.click turn.toX turn.toY) hselected.poised
  rw [heffect] at hpoised ⊢
  exact ⟨hselected.no_dispatch, rfl, hpoised, runner.gameEngine, hselected.atRest, rfl⟩

theorem triple_wait (h : turn.Legal board) :
    language.Triple (Requested board turn) [.wait turn.ms] [] (Ready (turn.play board)) := by
  apply Language.Triple.single
  intro runner hrequested
  obtain ⟨engine, hrest, hengine⟩ := hrequested.requested
  have hplay := hrest.play h.valid h.not_king h.waits
  rw [← hengine] at hplay
  exact ⟨⟨hrequested.no_dispatch, hrequested.no_selection,
    keeps_poised runner (.wait turn.ms) hrequested.poised, hplay⟩, rfl⟩

theorem triple_print (board : Board) :
    language.Triple (Ready board) [.printBoard] (BoardPrinter.print board) (Ready board) := by
  apply Language.Triple.single
  intro runner hready
  have hsame : language.effect runner .printBoard = runner :=
    observes_of_not_acts rfl runner hready.poised
  have hwrites := writes_of_poised hready.poised .printBoard
  rw [hready.atRest.board_eq] at hwrites
  rw [hsame]
  exact ⟨hready, hwrites⟩

/-- A turn plays its move and prints the board. -/
theorem triple_commands (h : turn.Legal board) :
    language.Triple (Ready board) turn.commands (BoardPrinter.print (turn.play board))
      (Ready (turn.play board)) :=
  (triple_first h).append
    ((triple_second h).append ((triple_wait h).append (triple_print (turn.play board))))

/-- A script of legal turns plays chess: every print shows the board after the moves so far, and the
script ends with an engine at rest on the last of these boards. -/
theorem triple_turns {turns : List Turn} (h : Transition.Along Turn.play Turn.Legal board turns) :
    language.Triple (Ready board) (turns.flatMap Turn.commands)
      (Transition.emissions Turn.play (fun board turn ↦ BoardPrinter.print (turn.play board))
        board turns)
      (Ready (Transition.run Turn.play board turns)) := by
  induction turns generalizing board with
  | nil => exact Language.Triple.skip _
  | cons turn turns ih => exact (triple_commands h.1).append (ih h.2)

/-- A rook, a pawn in its way and a king. -/
def rookBoard : Board where
  cells := [[.of .rook .white, .empty, .of .pawn .black], [.empty, .empty, .of .king .white]]
  rectangular := by decide

/-- The rook takes the pawn, and then the king makes a step. -/
def rookTurns : List Turn := [⟨61, 64, 261, 64, 2000⟩, ⟨261, 164, 161, 164, 1500⟩]

theorem triple_turns_rook :
    language.Triple (Ready rookBoard) (rookTurns.flatMap commands)
        (Transition.emissions play (fun board turn ↦ BoardPrinter.print (turn.play board)) rookBoard
          rookTurns)
        (Ready (Transition.run play rookBoard rookTurns)) ∧
      Transition.emissions play (fun board turn ↦ BoardPrinter.print (turn.play board)) rookBoard
          rookTurns = ". . wR\n. . wK\n. . wR\n. wK .\n".toList :=
  ⟨triple_turns (by decide), by decide⟩

end Turn

end KongFuChess.Texttests
