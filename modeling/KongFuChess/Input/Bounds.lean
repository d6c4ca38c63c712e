import KongFuChess.Input.Session
import KongFuChess.Io.BoardSetup

/-!
# The cells that the mouse makes the program read

The handlers of the mouse index the board with squares computed from pixels and with the selected
square. Here they are run once more with the cells they read, directly and through the engine. A
click only reads squares of the board. A jump compares its square with the upper bounds of the board
after it has read the piece on it, so it stays on the board only where its pixel does.
-/

namespace KongFuChess.Input

open Model Realtime Rules Engine

namespace Traced

open Rules.Traced (Run cell)

def GameEngine.requestMove (fuel : ℕ) (engine : GameEngine) (fromPos toPos : Position) :
    Run (Bool × GameEngine) :=
  if engine.isGameOver then return (false, engine)
  else if engine.isBusyAt fromPos then return (false, engine)
  else do
    let valid ← Rules.Traced.validateMove fuel engine.board fromPos toPos
    if !valid then return (false, engine)
    else
      -- The motion and the event take the type and the colour of the piece.
      let _ ← cell engine.board fromPos
      return (true, engine.start (engine.newMove fromPos toPos)
        (.moveStarted (engine.moveStartedEvent fromPos toPos)))

def GameEngine.requestJump (engine : GameEngine) (pos : Position) : Run (Bool × GameEngine) :=
  if engine.isGameOver then return (false, engine)
  else if !engine.board.inBounds pos then return (false, engine)
  else do
    let piece ← cell engine.board pos
    if piece.isEmpty || piece.jumpCooldownRemainingMs > 0 || engine.isBusyAt pos then
      return (false, engine)
    else
      return (true, engine.start (engine.newJump pos) (.jumpStarted (engine.jumpStartedEvent pos)))

def Connection.dispatchMove (fuel : ℕ) (connection : Connection) (engine : GameEngine)
    (fromPos toPos : Position) : Run (Bool × GameEngine) :=
  if !connection.sendMove fromPos toPos then return (false, engine)
  else if !connection.isServerHost then do
    let (_, engine) ← GameEngine.requestMove fuel engine fromPos toPos
    return (true, engine)
  else return (true, engine)

def Connection.dispatchJump (connection : Connection) (engine : GameEngine) (square : Position) :
    Run (Bool × GameEngine) :=
  if !connection.sendJump square then return (false, engine)
  else if !connection.isServerHost then do
    let (_, engine) ← GameEngine.requestJump engine square
    return (true, engine)
  else return (true, engine)

def requestMove (fuel : ℕ) (controller : Controller) (engine : GameEngine)
    (fromPos toPos : Position) : Run (Bool × GameEngine) :=
  match controller.dispatch with
  | some connection => Connection.dispatchMove fuel connection engine fromPos toPos
  | none => GameEngine.requestMove fuel engine fromPos toPos

def requestJump (controller : Controller) (engine : GameEngine) (square : Position) :
    Run (Bool × GameEngine) :=
  match controller.dispatch with
  | some connection => Connection.dispatchJump connection engine square
  | none => GameEngine.requestJump engine square

def handleClick (fuel : ℕ) (controller : Controller) (engine : GameEngine) (x y : ℤ)
    (playerColor : Option Color) : Run (Controller × GameEngine) :=
  if engine.isGameOver then return (controller, engine)
  else
    let board := engine.board
    let clicked := BoardMapper.toPosition x y
    if clicked.row < 0 || !board.inBounds clicked then
      return (if controller.hasSelection then controller.clearSelection else controller, engine)
    else do
      let clickedPiece ← cell board clicked
      if !controller.hasSelection then
        if clickedPiece.isEmpty then return (controller, engine)
        else if !canControlPiece clickedPiece playerColor then return (controller, engine)
        else return (controller.select clicked, engine)
      else
        let selectedPiece ← cell board controller.selectedSquare
        if !canControlPiece selectedPiece playerColor then
          return (controller.clearSelection, engine)
        else if !clickedPiece.isEmpty && clickedPiece.color = selectedPiece.color then
          if !canControlPiece clickedPiece playerColor then return (controller, engine)
          else return (controller.select clicked, engine)
        else if engine.isBusyAt controller.selectedSquare then
          return (controller.clearSelection,
            Controller.clickWhileBusy engine controller.selectedSquare clicked)
        else if clickedPiece.isEmpty then
          let valid ← Rules.Traced.validateMove fuel board controller.selectedSquare clicked
          if valid then
            let (_, engine) ← requestMove fuel controller engine controller.selectedSquare clicked
            return (controller.clearSelection, engine)
          else return (controller.clearSelection, engine)
        else
          let valid ← Rules.Traced.validateMove fuel board controller.selectedSquare clicked
          if !valid then return (controller, engine)
          else
            let (accepted, engine) ←
              requestMove fuel controller engine controller.selectedSquare clicked
            if !accepted then return (controller, engine)
            else return (controller.clearSelection, engine)

def handleJump (controller : Controller) (engine : GameEngine) (x y : ℤ)
    (playerColor : Option Color) : Run (Controller × GameEngine) :=
  let pos := BoardMapper.toPosition x y
  if pos.row < 0 then return (controller, engine)
  else do
    let piece ← cell engine.board pos
    if !canControlPiece piece playerColor then return (controller, engine)
    else
      let (accepted, engine) ← requestJump controller engine pos
      if accepted then return (controller.clearSelection, engine)
      else return (controller, engine)

end Traced

/-! ## Requests -/

section Requests

variable (engine : GameEngine) (fromPos toPos : Position)

theorem records_engineMove : Records engine.board (distance fromPos toPos)
    (fun fuel ↦ Traced.GameEngine.requestMove fuel engine fromPos toPos)
    (engine.requestMove fromPos toPos) := by
  unfold Traced.GameEngine.requestMove GameEngine.requestMove
  cases engine.isGameOver with
  | true => exact .pure _
  | false =>
    cases engine.isBusyAt fromPos with
    | true => exact .pure _
    | false =>
      simp only [Bool.false_eq_true, ↓reduceIte]
      apply (records_validateMove engine.board fromPos toPos).bind
      cases hvalid : validateMove engine.board fromPos toPos with
      | false => exact .pure _
      | true =>
        have hfrom := (validated_of_validateMove hvalid).inBounds_from
        exact (records_cell hfrom).bind (.pure _)

theorem records_engineJump (pos : Position) {steps : ℕ} : Records engine.board steps
    (fun _ ↦ Traced.GameEngine.requestJump engine pos) (engine.requestJump pos) := by
  unfold Traced.GameEngine.requestJump GameEngine.requestJump
  cases engine.isGameOver with
  | true => exact .pure _
  | false =>
    cases hpos : engine.board.inBounds pos with
    | false => exact .pure _
    | true =>
      simp only [Bool.false_eq_true, Bool.not_true, ↓reduceIte]
      apply (records_cell hpos).bind
      split
      · exact .pure _
      · exact .pure _

variable (controller : Controller)

theorem records_requestMove (fromPos toPos : Position) :
    Records engine.board (distance fromPos toPos)
      (fun fuel ↦ Traced.requestMove fuel controller engine fromPos toPos)
      (controller.requestMove engine fromPos toPos) := by
  unfold Traced.requestMove Controller.requestMove
  cases controller.dispatch with
  | none => exact records_engineMove engine fromPos toPos
  | some connection =>
    simp only [Traced.Connection.dispatchMove, Connection.dispatchMove]
    cases connection.sendMove fromPos toPos with
    | false => exact .pure _
    | true =>
      cases connection.isServerHost with
      | true => exact .pure _
      | false => exact (records_engineMove engine fromPos toPos).bind (.pure _)

theorem records_requestJump (square : Position) {steps : ℕ} : Records engine.board steps
    (fun _ ↦ Traced.requestJump controller engine square)
    (controller.requestJump engine square) := by
  unfold Traced.requestJump Controller.requestJump
  cases controller.dispatch with
  | none => exact records_engineJump engine square
  | some connection =>
    simp only [Traced.Connection.dispatchJump, Connection.dispatchJump]
    cases connection.sendJump square with
    | false => exact .pure _
    | true =>
      cases connection.isServerHost with
      | true => exact .pure _
      | false => exact (records_engineJump engine square).bind (.pure _)

end Requests

/-! ## Handlers -/

section Handlers

variable (controller : Controller) (engine : GameEngine) (x y : ℤ) (playerColor : Option Color)

/-- A click on the board reads the clicked and the selected square, and what the request reads. -/
theorem records_handleClick (hselected : controller.hasSelection = true →
      engine.board.inBounds controller.selectedSquare = true) :
    Records engine.board
      (distance controller.selectedSquare (BoardMapper.toPosition x y))
      (fun fuel ↦ Traced.handleClick fuel controller engine x y playerColor)
      (controller.handleClick engine x y playerColor) := by
  unfold Traced.handleClick Controller.handleClick
  cases engine.isGameOver with
  | true => exact .pure _
  | false =>
    simp only [Bool.false_eq_true, ↓reduceIte]
    generalize BoardMapper.toPosition x y = clicked
    cases houtside : decide (clicked.row < 0) || !engine.board.inBounds clicked with
    | true => exact .pure _
    | false =>
      rw [Bool.or_eq_false_iff, Bool.not_eq_false'] at houtside
      simp only [Bool.false_eq_true, ↓reduceIte]
      apply (records_cell houtside.2).bind
      cases hselection : controller.hasSelection with
      | false =>
        simp only [Bool.not_false, ↓reduceIte]
        split
        · exact .pure _
        · split
          · exact .pure _
          · exact .pure _
      | true =>
        simp only [Bool.not_true, Bool.false_eq_true, ↓reduceIte]
        apply (records_cell (hselected hselection)).bind
        split
        · exact .pure _
        split
        · split
          · exact .pure _
          · exact .pure _
        split
        · exact .pure _
        have hvalidate := records_validateMove engine.board controller.selectedSquare clicked
        have hrequest := records_requestMove engine controller controller.selectedSquare clicked
        split
        · apply hvalidate.bind
          split
          · exact hrequest.bind (.pure _)
          · exact .pure _
        · apply hvalidate.bind
          split
          · exact .pure _
          · apply hrequest.bind
            split
            · exact .pure _
            · exact .pure _

/-- A jump reads its square first. -/
theorem records_handleJump (hpos : (BoardMapper.toPosition x y).row < 0 ∨
      engine.board.inBounds (BoardMapper.toPosition x y) = true) {steps : ℕ} :
    Records engine.board steps (fun _ ↦ Traced.handleJump controller engine x y playerColor)
      (controller.handleJump engine x y playerColor) := by
  unfold Traced.handleJump Controller.handleJump
  generalize BoardMapper.toPosition x y = pos at hpos ⊢
  by_cases hrow : pos.row < 0
  · simp only [if_pos hrow]
    exact .pure _
  · simp only [if_neg hrow]
    apply (records_cell (hpos.resolve_left hrow)).bind
    split
    · exact .pure _
    · apply (records_requestJump engine controller pos).bind
      split
      · exact .pure _
      · exact .pure _

end Handlers

/-! ## Sessions -/

/-- A click selects its square if that is on the board. -/
theorem selection_handleClick (controller : Controller) (engine : GameEngine) (x y : ℤ)
    (playerColor : Option Color) {P : Controller → Prop} (hsame : P controller)
    (hclear : P controller.clearSelection)
    (hselect : engine.board.inBounds (BoardMapper.toPosition x y) = true →
      P (controller.select (BoardMapper.toPosition x y))) :
    P (controller.handleClick engine x y playerColor).1 := by
  unfold Controller.handleClick
  cases engine.isGameOver with
  | true => exact hsame
  | false =>
    simp only [Bool.false_eq_true, ↓reduceIte]
    generalize BoardMapper.toPosition x y = clicked at hselect ⊢
    cases houtside : decide (clicked.row < 0) || !engine.board.inBounds clicked with
    | true =>
      simp only [↓reduceIte]
      split
      · exact hclear
      · exact hsame
    | false =>
      rw [Bool.or_eq_false_iff, Bool.not_eq_false'] at houtside
      simp only [Bool.false_eq_true, ↓reduceIte]
      split
      · split
        · exact hsame
        · split
          · exact hsame
          · exact hselect houtside.2
      split
      · exact hclear
      split
      · split
        · exact hsame
        · exact hselect houtside.2
      split
      · exact hclear
      split
      · split
        · exact hclear
        · exact hclear
      split
      · exact hsame
      · split
        · exact hsame
        · exact hclear

theorem selection_handleJump (controller : Controller) (engine : GameEngine) (x y : ℤ)
    (playerColor : Option Color) {P : Controller → Prop} (hsame : P controller)
    (hclear : P controller.clearSelection) :
    P (controller.handleJump engine x y playerColor).1 := by
  unfold Controller.handleJump
  simp only
  split
  · exact hsame
  split
  · exact hsame
  split
  · exact hclear
  · exact hsame

namespace Session

/-- The selected square is on the board. -/
def SelectionOnBoard (session : Session) : Prop :=
  session.controller.hasSelection = true →
    session.engine.board.inBounds session.controller.selectedSquare = true

/-- The board keeps its size. -/
theorem inBounds_step {session : Session} (h : session.engine.Lifecycle) (op : Op)
    (pos : Position) :
    (session.step op).engine.board.inBounds pos = session.engine.board.inBounds pos := by
  obtain ⟨ops, heq⟩ := session.exists_engineOps op
  rw [heq]
  refine (Transition.run_invariant GameEngine.step
    (I := fun later ↦ later.Lifecycle ∧
      later.board.inBounds pos = session.engine.board.inBounds pos) ?_ ⟨h, rfl⟩ ops).2
  rintro later engineOp ⟨hlife, hbounds⟩
  refine ⟨hlife.step engineOp, Eq.trans ?_ hbounds⟩
  cases engineOp with
  | advanceTime ms => exact hlife.inBounds_advanceTime ms pos
  | requestMove | requestJump | queuePremove | remoteGameEnded =>
    rw [GameEngine.board_step later fun _ ↦ Engine.Op.noConfusion]

theorem SelectionOnBoard.step {session : Session} (hlife : session.engine.Lifecycle)
    (h : session.SelectionOnBoard) (op : Op) : (session.step op).SelectionOnBoard := by
  have hkeep : (session.step op).controller.hasSelection = true →
      session.engine.board.inBounds (session.step op).controller.selectedSquare = true := by
    have hclear : session.controller.clearSelection.hasSelection = true →
        session.engine.board.inBounds session.controller.clearSelection.selectedSquare = true :=
      fun hselection ↦ absurd hselection (by simp)
    cases op with
    | click x y playerColor =>
      exact selection_handleClick session.controller session.engine x y playerColor
        (P := fun later ↦ later.hasSelection = true →
          session.engine.board.inBounds later.selectedSquare = true) h hclear fun hin _ ↦ hin
    | jump x y playerColor =>
      exact selection_handleJump session.controller session.engine x y playerColor
        (P := fun later ↦ later.hasSelection = true →
          session.engine.board.inBounds later.selectedSquare = true) h hclear
    | setDispatch dispatch => exact h
    | engine op => exact h
  intro hselection
  rw [inBounds_step hlife]
  exact hkeep hselection

theorem selectionOnBoard_run (before : GameEngine) (ops : List Op) :
    ((start before).run ops).SelectionOnBoard := by
  refine (Transition.run_invariant step
    (I := fun session ↦ session.engine.Lifecycle ∧ session.SelectionOnBoard) ?_ ?_ ops).2
  · rintro session op ⟨hlife, hselection⟩
    obtain ⟨engineOps, heq⟩ := session.exists_engineOps op
    refine ⟨?_, hselection.step hlife op⟩
    rw [heq]
    exact Transition.run_invariant GameEngine.step (fun _ op hlater ↦ hlater.step op) hlife
      engineOps
  · have hnone : ({} : Controller).hasSelection = false := by decide
    exact ⟨GameEngine.lifecycle_reset before, fun hselection ↦
      absurd (hnone.symm.trans hselection) Bool.false_ne_true⟩

/-! ## Mouse input -/

/-- A step with the cells it reads. -/
def footprint (session : Session) (fuel : ℕ) : Op → Rules.Traced.Run Session
  | .click x y playerColor => do
    let (controller, engine) ←
      Traced.handleClick fuel session.controller session.engine x y playerColor
    return { controller := controller, engine := engine }
  | .jump x y playerColor => do
    let (controller, engine) ← Traced.handleJump session.controller session.engine x y playerColor
    return { controller := controller, engine := engine }
  | op => return session.step op

/-- The square under the mouse. -/
def square? : Op → Option Position
  | .click x y _ => some (BoardMapper.toPosition x y)
  | .jump x y _ => some (BoardMapper.toPosition x y)
  | _ => none

/-- The input reads squares of the board only, and outside the board it starts no motion and queues
no premove. -/
def StaysOnBoard (session : Session) (op : Op) : Prop :=
  (∀ fuel, (session.footprint fuel op).Within (session.engine.board.inBounds · = true)) ∧
    ∀ square ∈ square? op, session.engine.board.inBounds square = false →
      (session.step op).engine.activeMotions = session.engine.activeMotions ∧
        (session.step op).engine.premoves = session.engine.premoves

/-- A jump is on the board, or left of it or above it, where the pixel has no square. -/
def JumpOnBoard (session : Session) : Op → Prop
  | .jump x y _ => (BoardMapper.toPosition x y).row < 0 ∨
      session.engine.board.inBounds (BoardMapper.toPosition x y) = true
  | _ => True

theorem handleClick_outside {controller : Controller} {engine : GameEngine} {x y : ℤ}
    (playerColor : Option Color)
    (houtside : engine.board.inBounds (BoardMapper.toPosition x y) = false) :
    (controller.handleClick engine x y playerColor).2 = engine := by
  unfold Controller.handleClick
  simp only [houtside, Bool.not_false, Bool.or_true, ↓reduceIte]
  split
  · rfl
  · rfl

theorem staysOnBoard_iff (before : GameEngine) (ops : List Op) (input : Op) :
    ((start before).run ops).StaysOnBoard input ↔ ((start before).run ops).JumpOnBoard input := by
  have hselection := selectionOnBoard_run before ops
  generalize (start before).run ops = session at hselection ⊢
  cases input with
  | click x y playerColor =>
    refine iff_of_true ⟨fun fuel ↦ ?_, ?_⟩ trivial
    · have hclick := records_handleClick session.controller session.engine x y playerColor
        hselection
      exact (hclick.within fuel).bind fun _ _ ↦ Footprint.within_pure _
    · rintro square hsquare houtside
      obtain rfl := Option.some.inj hsquare
      rw [engine_step_click, handleClick_outside playerColor houtside]
      exact ⟨rfl, rfl⟩
  | jump x y playerColor =>
    constructor
    · rintro ⟨hreads, -⟩
      by_cases hrow : (BoardMapper.toPosition x y).row < 0
      · exact .inl hrow
      · have hhandler := (Footprint.within_bind.1 (hreads 0)).1
        simp only [Traced.handleJump, if_neg hrow] at hhandler
        exact .inr ((Footprint.within_bind.1 hhandler).1 _ (List.mem_singleton_self _))
    · intro hjump
      refine ⟨fun fuel ↦ ?_, ?_⟩
      · have hhandler : Records session.engine.board 0 _ _ :=
          records_handleJump session.controller session.engine x y playerColor hjump
        exact (hhandler.within fuel).bind fun _ _ ↦ Footprint.within_pure _
      · rintro square hsquare houtside
        obtain rfl := Option.some.inj hsquare
        rcases hjump with hrow | hin
        · rw [engine_step_jump, Controller.handleJump]
          simp only [if_pos hrow, and_self]
        · exact absurd (houtside.symm.trans hin) Bool.false_ne_true
  | setDispatch dispatch =>
    exact iff_of_true ⟨fun _ ↦ Footprint.within_pure _, fun _ h ↦ absurd h (Option.not_mem_none _)⟩
      trivial
  | engine op =>
    exact iff_of_true ⟨fun _ ↦ Footprint.within_pure _, fun _ h ↦ absurd h (Option.not_mem_none _)⟩
      trivial

/-- On the standard board a jump right of the eighth column, where the window shows its panel, reads
beside the board. -/
theorem jump_on_panel_reads_outside :
    ¬ ((start { board := Io.setupStandardBoard }).run []).StaysOnBoard
      (.jump 850 60 (some .white)) := by
  rintro ⟨hreads, -⟩
  have hmem : (⟨0, 8⟩ : Position) ∈ (((start { board := Io.setupStandardBoard }).run
      []).footprint 0 (.jump 850 60 (some .white))).reads := by decide
  exact absurd (hreads 0 _ hmem) (by decide)

end Session

end KongFuChess.Input
