import KongFuChess.Engine.Lifecycle
import KongFuChess.Input.Controller

/-!
# Sessions of one player

A session is a controller in front of an engine. Mouse input alternates with everything else that
happens to the engine, and the dispatch may be installed at any time.
-/

namespace KongFuChess.Input

open Model Realtime Rules Engine

structure Session where
  controller : Controller := {}
  engine : GameEngine

inductive Op
  | click (x y : ℤ) (playerColor : Option Color)
  | jump (x y : ℤ) (playerColor : Option Color)
  | setDispatch (dispatch : Option Connection)
  | engine (op : Engine.Op)

namespace Session

/-- A fresh controller in front of an engine that has just been reset. -/
def start (before : GameEngine) : Session := { engine := before.reset }

def step (session : Session) : Op → Session
  | .click x y playerColor =>
    let (controller, engine) := session.controller.handleClick session.engine x y playerColor
    { controller := controller, engine := engine }
  | .jump x y playerColor =>
    let (controller, engine) := session.controller.handleJump session.engine x y playerColor
    { controller := controller, engine := engine }
  | .setDispatch dispatch =>
    { session with controller := { session.controller with dispatch := dispatch } }
  | .engine op => { session with engine := session.engine.step op }

@[simp]
theorem engine_step_click (session : Session) (x y : ℤ) (playerColor : Option Color) :
    (session.step (.click x y playerColor)).engine =
      (session.controller.handleClick session.engine x y playerColor).2 := rfl

@[simp]
theorem engine_step_jump (session : Session) (x y : ℤ) (playerColor : Option Color) :
    (session.step (.jump x y playerColor)).engine =
      (session.controller.handleJump session.engine x y playerColor).2 := rfl

abbrev run (session : Session) (ops : List Op) : Session := Transition.run step session ops

end Session

/-! ## What the mouse does to the engine -/

section Cases

variable (controller : Controller) (engine : GameEngine)

theorem requestMove_cases (fromPos toPos : Position) :
    (controller.requestMove engine fromPos toPos).2 = engine ∨
      (controller.requestMove engine fromPos toPos).2 = (engine.requestMove fromPos toPos).2 := by
  unfold Controller.requestMove
  split
  · unfold Connection.dispatchMove
    split
    · exact .inl rfl
    · split
      · exact .inr rfl
      · exact .inl rfl
  · exact .inr rfl

theorem requestJump_cases (square : Position) :
    (controller.requestJump engine square).2 = engine ∨
      (controller.requestJump engine square).2 = (engine.requestJump square).2 := by
  unfold Controller.requestJump
  split
  · unfold Connection.dispatchJump
    split
    · exact .inl rfl
    · split
      · exact .inr rfl
      · exact .inl rfl
  · exact .inr rfl

/-- The premove of a click is queued under the source of a running move, from its destination. -/
structure QueuedFor (source destination : Position) : Prop where
  not_over : engine.isGameOver = false
  destination_eq : engine.getActiveMoveDestination source = some destination

/-- A click leaves the engine alone, requests a move or queues a premove. -/
theorem handleClick_induction {P : GameEngine → Prop} (x y : ℤ) (playerColor : Option Color)
    (hsame : P engine) (hmove : ∀ fromPos toPos, P (engine.requestMove fromPos toPos).2)
    (hqueue : ∀ source destination toPos, QueuedFor engine source destination →
      P (engine.queuePremove source destination toPos)) :
    P (controller.handleClick engine x y playerColor).2 := by
  have hrequest : ∀ toPos,
      P (controller.requestMove engine controller.selectedSquare toPos).2 := by
    intro toPos
    rcases requestMove_cases controller engine controller.selectedSquare toPos with h | h
    · rw [h]
      exact hsame
    · rw [h]
      exact hmove _ _
  cases hover : engine.isGameOver with
  | true =>
    rw [Controller.handleClick, if_pos hover]
    exact hsame
  | false =>
    rw [Controller.handleClick, if_neg (by simp [hover])]
    simp only
    split
    · exact hsame
    split
    · split
      · exact hsame
      · split
        · exact hsame
        · exact hsame
    split
    · exact hsame
    split
    · split
      · exact hsame
      · exact hsame
    split
    · -- The selected piece is busy.
      unfold Controller.clickWhileBusy
      split
      · split
        · rename_i destination hdestination
          exact hqueue _ destination _ ⟨hover, hdestination⟩
        · exact hsame
      · exact hsame
    split
    · split
      · exact hrequest _
      · exact hsame
    split
    · exact hsame
    · split
      · exact hrequest _
      · exact hrequest _

theorem handleJump_cases (x y : ℤ) (playerColor : Option Color) :
    (controller.handleJump engine x y playerColor).2 = engine ∨
      (controller.handleJump engine x y playerColor).2 =
        (engine.requestJump (BoardMapper.toPosition x y)).2 := by
  have hrequest := requestJump_cases controller engine (BoardMapper.toPosition x y)
  unfold Controller.handleJump
  simp only
  split
  · exact .inl rfl
  split
  · exact .inl rfl
  split
  · exact hrequest
  · exact hrequest

end Cases

namespace Session

/-- Whatever happens in a session, its engine makes a run of its own. -/
theorem exists_engineOps (session : Session) (op : Op) :
    ∃ ops : List Engine.Op, (session.step op).engine = session.engine.run ops := by
  cases op with
  | click x y playerColor =>
    apply handleClick_induction session.controller session.engine
      (P := fun later ↦ ∃ ops : List Engine.Op, later = session.engine.run ops)
    · exact ⟨[], rfl⟩
    · exact fun fromPos toPos ↦ ⟨[.requestMove fromPos toPos], rfl⟩
    · exact fun source destination toPos _ ↦ ⟨[.queuePremove source destination toPos], rfl⟩
  | jump x y playerColor =>
    rcases handleJump_cases session.controller session.engine x y playerColor with h | h
    · exact ⟨[], h⟩
    · exact ⟨[.requestJump (BoardMapper.toPosition x y)], h⟩
  | setDispatch dispatch => exact ⟨[], rfl⟩
  | engine op => exact ⟨[op], rfl⟩

theorem reachable_engine (before : GameEngine) (ops : List Op) :
    GameEngine.Reachable ((start before).run ops).engine := by
  refine Transition.run_invariant step (I := fun session ↦ GameEngine.Reachable session.engine)
    ?_ (GameEngine.reachable_reset before) ops
  intro session op hreachable
  obtain ⟨engineOps, heq⟩ := session.exists_engineOps op
  rw [heq]
  exact hreachable.run engineOps

theorem lifecycle_engine (before : GameEngine) (ops : List Op) :
    ((start before).run ops).engine.Lifecycle := (reachable_engine before ops).lifecycle

end Session

end KongFuChess.Input
