import KongFuChess.Engine.GameEngine
import KongFuChess.Realtime.Arrival

/-!
# What each engine operation can do

Every operation of the engine gets one lemma that says which fields it changes and under which
guards, so that later proofs need not unfold it. `advanceTime` is cut at `afterArrivals`, the state
in which the arrivals have been resolved and logged and the premoves are still to come; from there
on it only makes move requests, drops premoves and writes cooldowns.
-/

namespace KongFuChess.Engine

open Model Realtime Rules Events

/-- Two boards of one size that show the same types and colours. -/
structure SameKinds (left right : Board) : Prop where
  inBounds : ∀ pos, left.inBounds pos = right.inBounds pos
  rows : left.rows = right.rows
  kind : ∀ pos, (left.cell pos).kind = (right.cell pos).kind

namespace SameKinds

@[refl]
theorem refl (board : Board) : SameKinds board board := ⟨fun _ ↦ rfl, rfl, fun _ ↦ rfl⟩

@[symm]
theorem symm {left right : Board} (h : SameKinds left right) : SameKinds right left :=
  ⟨fun pos ↦ (h.inBounds pos).symm, h.rows.symm, fun pos ↦ (h.kind pos).symm⟩

@[trans]
theorem trans {first second third : Board} (h : SameKinds first second)
    (h' : SameKinds second third) : SameKinds first third :=
  ⟨fun pos ↦ (h.inBounds pos).trans (h'.inBounds pos), h.rows.trans h'.rows,
    fun pos ↦ (h.kind pos).trans (h'.kind pos)⟩

instance : Trans SameKinds SameKinds SameKinds := ⟨trans⟩

theorem type {left right : Board} (h : SameKinds left right) (pos : Position) :
    (left.cell pos).type = (right.cell pos).type :=
  Piece.type_congr (h.kind pos)

theorem color {left right : Board} (h : SameKinds left right) (pos : Position) :
    (left.cell pos).color = (right.cell pos).color :=
  Piece.color_congr (h.kind pos)

theorem isEmpty {left right : Board} (h : SameKinds left right) (pos : Position) :
    (left.cell pos).isEmpty = (right.cell pos).isEmpty :=
  Piece.isEmpty_congr (h.kind pos)

theorem valid {left right : Board} (h : SameKinds left right) (motion : Motion) :
    motion.Valid left ↔ motion.Valid right := by
  simp only [Motion.Valid, Piece.Is, h.isEmpty, h.type, h.color]

/-- What depends only on how the pieces look is the same all over the boards. -/
theorem map_eq {α : Type*} {left right : Board} (h : SameKinds left right) {f : Piece → α}
    (hf : ∀ piece other : Piece, piece.kind = other.kind → f piece = f other) :
    left.map f = right.map f := by
  apply Grid.ext_get?
  · simpa using h.rows
  intro row col
  rw [Grid.get?_map, Grid.get?_map]
  have hbounds := h.inBounds ⟨row, col⟩
  by_cases hin : left.inBounds ⟨row, col⟩ = true
  · have hleft := Board.get?_of_inBounds left hin
    have hright := Board.get?_of_inBounds right (hbounds ▸ hin)
    simp only at hleft hright
    rw [hleft, hright, Option.map_some, Option.map_some, hf _ _ (h.kind ⟨row, col⟩)]
  · have hleft := (left.get?_eq_none_iff row col).2 fun hbound ↦
      hin ((left.inBounds_iff ⟨row, col⟩).2 hbound)
    have hright := (right.get?_eq_none_iff row col).2 fun hbound ↦
      hin (hbounds.trans ((right.inBounds_iff ⟨row, col⟩).2 hbound))
    rw [hleft, hright]

theorem of_map_eq {left right : Board} (h : left.map Piece.kind = right.map Piece.kind) :
    SameKinds left right := by
  constructor
  · intro pos
    rw [Board.inBounds, Board.inBounds, decide_eq_decide, ← Grid.inBounds_map Piece.kind left, h,
      Grid.inBounds_map]
  · rw [← Grid.rows_map Piece.kind left, h, Grid.rows_map]
  · intro pos
    have hread : (left.get? pos.row pos.col).map Piece.kind =
        (right.get? pos.row pos.col).map Piece.kind := by
      rw [← Grid.get?_map, h, Grid.get?_map]
    rw [Board.cell, Board.cell, Grid.getD, Grid.getD, ← Option.getD_map Piece.kind,
      ← Option.getD_map Piece.kind, hread]

instance (left right : Board) : Decidable (SameKinds left right) :=
  decidable_of_iff (left.map Piece.kind = right.map Piece.kind)
    ⟨of_map_eq, fun h ↦ h.map_eq fun _ _ hkind ↦ hkind⟩

/-- Overwriting a piece by one that looks the same. -/
theorem setCell (board : Board) (pos : Position) {piece : Piece}
    (h : piece.kind = (board.cell pos).kind) : SameKinds (board.setCell pos piece) board := by
  refine ⟨by simp, by simp, fun other ↦ ?_⟩
  rw [Board.cell_setCell]
  split
  · rename_i heq
    rw [h, heq.1]
  · rfl

theorem foldl {α : Type*} (step : Board → α → Board)
    (hstep : ∀ board entry, SameKinds (step board entry) board) (entries : List α)
    (board : Board) : SameKinds (entries.foldl step board) board := by
  induction entries generalizing board with
  | nil => rfl
  | cons entry entries ih =>
    calc
      SameKinds (entries.foldl step (step board entry)) (step board entry) := ih _
      SameKinds _ board := hstep board entry

end SameKinds

theorem cell_decreaseAllCooldowns (board : Board) (ms : ℤ) (pos : Position) :
    (decreaseAllCooldowns board ms).cell pos =
      if board.inBounds pos then (board.cell pos).decreaseCooldown ms else Piece.empty := by
  unfold decreaseAllCooldowns
  split
  · rename_i hin
    rw [Board.cell, Grid.getD, Grid.get?_map, Board.get?_of_inBounds board hin]
    rfl
  · rename_i hout
    exact Board.cell_of_not_inBounds _ (by simpa [Board.inBounds] using hout)

theorem sameKinds_decreaseAllCooldowns (board : Board) (ms : ℤ) :
    SameKinds (decreaseAllCooldowns board ms) board := by
  refine ⟨fun pos ↦ by simp [Board.inBounds, decreaseAllCooldowns],
    by simp [decreaseAllCooldowns], fun pos ↦ ?_⟩
  rw [cell_decreaseAllCooldowns]
  split
  · rfl
  · rename_i hout
    rw [Board.cell_of_not_inBounds board (by simpa using hout)]

theorem sameKinds_landJump (currentTimeMs : ℤ) (board : Board) (motion : Motion) :
    SameKinds (landJump currentTimeMs board motion) board := by
  simp only [landJump]
  split
  · rfl
  · split
    · rfl
    · split
      · exact SameKinds.setCell board _ (by simp)
      · rfl

namespace GameEngine

/-! ## Starting motions -/

section Start

variable (engine : GameEngine) (motion : Motion) (event : GameEvent)

@[simp]
theorem board_start : (engine.start motion event).board = engine.board := rfl

@[simp]
theorem activeMotions_start :
    (engine.start motion event).activeMotions = engine.activeMotions ++ [motion] := rfl

@[simp]
theorem elapsedMs_start : (engine.start motion event).elapsedMs = engine.elapsedMs := rfl

@[simp]
theorem nextMotionId_start :
    (engine.start motion event).nextMotionId = engine.nextMotionId + 1 := rfl

@[simp]
theorem isGameOver_start : (engine.start motion event).isGameOver = engine.isGameOver := rfl

@[simp]
theorem winner_start : (engine.start motion event).winner = engine.winner := rfl

@[simp]
theorem premoves_start : (engine.start motion event).premoves = engine.premoves := rfl

@[simp]
theorem moveLog_start : (engine.start motion event).moveLog = engine.moveLog := rfl

@[simp]
theorem eventBus_start :
    (engine.start motion event).eventBus = engine.eventBus.map (· ++ [event]) := rfl

end Start

/-- What all motions have when one more is started. -/
theorem forall_mem_start {engine : GameEngine} {motion : Motion} {event : GameEvent}
    {p : Motion → Prop} (hactive : ∀ active ∈ engine.activeMotions, p active) (hnew : p motion) :
    ∀ active ∈ (engine.start motion event).activeMotions, p active := by
  intro active hmem
  rw [activeMotions_start, List.mem_append, List.mem_singleton] at hmem
  rcases hmem with hold | rfl
  · exact hactive active hold
  · exact hnew

/-- The guards of an accepted move request. -/
structure MoveAccepted (engine : GameEngine) (fromPos toPos : Position) : Prop where
  not_over : engine.isGameOver = false
  not_busy : engine.isBusyAt fromPos = false
  valid : validateMove engine.board fromPos toPos = true

theorem requestMove_cases (engine : GameEngine) (fromPos toPos : Position) :
    engine.requestMove fromPos toPos = (false, engine) ∨
      engine.MoveAccepted fromPos toPos ∧
        engine.requestMove fromPos toPos =
          (true, engine.start (engine.newMove fromPos toPos)
            (.moveStarted (engine.moveStartedEvent fromPos toPos))) := by
  unfold requestMove
  split
  · exact .inl rfl
  · split
    · exact .inl rfl
    · split
      · exact .inl rfl
      · rename_i hover hbusy hvalid
        exact .inr ⟨⟨by simpa using hover, by simpa using hbusy, by simpa using hvalid⟩, rfl⟩

theorem requestMove_of_accepted {engine : GameEngine} {fromPos toPos : Position}
    (h : engine.MoveAccepted fromPos toPos) :
    engine.requestMove fromPos toPos =
      (true, engine.start (engine.newMove fromPos toPos)
        (.moveStarted (engine.moveStartedEvent fromPos toPos))) := by
  rw [requestMove, if_neg (by simp [h.not_over]), if_neg (by simp [h.not_busy]),
    if_neg (by simp [h.valid])]

/-- The guards of an accepted jump request. -/
structure JumpAccepted (engine : GameEngine) (pos : Position) : Prop where
  not_over : engine.isGameOver = false
  not_busy : engine.isBusyAt pos = false
  inBounds : engine.board.inBounds pos = true
  occupied : (engine.board.cell pos).isEmpty = false
  rested : (engine.board.cell pos).jumpCooldownRemainingMs ≤ 0

theorem requestJump_cases (engine : GameEngine) (pos : Position) :
    engine.requestJump pos = (false, engine) ∨
      engine.JumpAccepted pos ∧
        engine.requestJump pos =
          (true, engine.start (engine.newJump pos)
            (.jumpStarted (engine.jumpStartedEvent pos))) := by
  unfold requestJump
  split
  · exact .inl rfl
  · split
    · exact .inl rfl
    · simp only
      split
      · exact .inl rfl
      · rename_i hover hbounds hguard
        simp only [Bool.or_eq_true, decide_eq_true_eq, not_or, Bool.not_eq_true, not_lt] at hguard
        exact .inr ⟨⟨by simpa using hover, hguard.2, by simpa using hbounds, hguard.1.1,
          hguard.1.2⟩, rfl⟩

/-- A property kept by every accepted move request is kept by every move request. -/
theorem requestMove_induction {P : GameEngine → Prop} {engine : GameEngine}
    {fromPos toPos : Position}
    (hstart : engine.MoveAccepted fromPos toPos → P (engine.start (engine.newMove fromPos toPos)
      (.moveStarted (engine.moveStartedEvent fromPos toPos))))
    (h : P engine) : P (engine.requestMove fromPos toPos).2 := by
  rcases engine.requestMove_cases fromPos toPos with heq | ⟨haccepted, heq⟩
  · rwa [heq]
  · rw [heq]
    exact hstart haccepted

theorem requestJump_induction {P : GameEngine → Prop} {engine : GameEngine} {pos : Position}
    (hstart : engine.JumpAccepted pos →
      P (engine.start (engine.newJump pos) (.jumpStarted (engine.jumpStartedEvent pos))))
    (h : P engine) : P (engine.requestJump pos).2 := by
  rcases engine.requestJump_cases pos with heq | ⟨haccepted, heq⟩
  · rwa [heq]
  · rw [heq]
    exact hstart haccepted

theorem not_busy_iff (engine : GameEngine) (pos : Position) :
    engine.isBusyAt pos = false ↔ ∀ motion ∈ engine.activeMotions, motion.source ≠ pos := by
  simp [isBusyAt]

/-! ## The verdict -/

/-- The winner that one completing move declares. -/
def verdict (engine : GameEngine) (motion : Motion) : Option Color :=
  let mover := engine.board.cell motion.source
  let destination := engine.board.cell motion.destination
  if motion.type ≠ .move || mover.isEmpty then none
  else if !destination.isEmpty && destination.type = .king &&
      !destination.isFriendly mover.color then some mover.color
  else if isJumpActiveAt engine.activeMotions motion.destination && mover.type = .king then
    some mover.color
  else none

theorem checkGameOverLoop_eq (engine : GameEngine) (completing : List Motion) :
    engine.checkGameOverLoop completing =
      match completing.findSome? engine.verdict with
      | none => engine
      | some winnerColor => engine.endGame winnerColor := by
  induction completing with
  | nil => rfl
  | cons motion rest ih =>
    rw [checkGameOverLoop, List.findSome?_cons]
    unfold verdict at ih ⊢
    split
    · rename_i htype
      simp [htype, ih]
    · rename_i htype
      simp only [htype, decide_false, Bool.false_or]
      split
      · exact ih
      · split
        · rfl
        · split
          · rfl
          · exact ih

/-- The verdict declares the first winner found, unless the game is already over. -/
theorem checkGameOver_eq (engine : GameEngine) (completing : List Motion) :
    engine.checkGameOverFromCompletingMoves completing =
      if engine.isGameOver then engine
      else
        match completing.findSome? engine.verdict with
        | none => engine
        | some winnerColor => engine.endGame winnerColor := by
  rw [checkGameOverFromCompletingMoves, checkGameOverLoop_eq]

theorem checkGameOver_induction {P : GameEngine → Prop} {engine : GameEngine}
    (hend : ∀ winnerColor, P (engine.endGame winnerColor)) (h : P engine)
    (completing : List Motion) : P (engine.checkGameOverFromCompletingMoves completing) := by
  rw [checkGameOver_eq]
  split
  · exact h
  · split
    · exact h
    · exact hend _

section CheckGameOver

variable (engine : GameEngine) (completing : List Motion)

@[simp]
theorem board_checkGameOver :
    (engine.checkGameOverFromCompletingMoves completing).board = engine.board :=
  checkGameOver_induction (P := fun later ↦ later.board = engine.board) (fun _ ↦ rfl) rfl _

@[simp]
theorem arbiter_checkGameOver :
    (engine.checkGameOverFromCompletingMoves completing).arbiter = engine.arbiter :=
  checkGameOver_induction (P := fun later ↦ later.arbiter = engine.arbiter) (fun _ ↦ rfl) rfl _

@[simp]
theorem moveLog_checkGameOver :
    (engine.checkGameOverFromCompletingMoves completing).moveLog = engine.moveLog :=
  checkGameOver_induction (P := fun later ↦ later.moveLog = engine.moveLog) (fun _ ↦ rfl) rfl _

@[simp]
theorem premoves_checkGameOver :
    (engine.checkGameOverFromCompletingMoves completing).premoves = engine.premoves :=
  checkGameOver_induction (P := fun later ↦ later.premoves = engine.premoves) (fun _ ↦ rfl) rfl _

@[simp]
theorem nextMotionId_checkGameOver :
    (engine.checkGameOverFromCompletingMoves completing).nextMotionId = engine.nextMotionId :=
  checkGameOver_induction (P := fun later ↦ later.nextMotionId = engine.nextMotionId)
    (fun _ ↦ rfl) rfl _

end CheckGameOver

/-! ## Logging and publishing the resolutions -/

theorem processMoveResolutions_induction {P : GameEngine → Prop}
    (hstep : ∀ engine resolution, P engine → P (processMoveResolution engine resolution))
    {engine : GameEngine} (h : P engine) (resolutions : List MoveResolution) :
    P (engine.processMoveResolutions resolutions) := by
  unfold processMoveResolutions
  induction resolutions generalizing engine with
  | nil => exact h
  | cons resolution rest ih => exact ih (hstep _ _ h)

/-- Everything but the log and the bus is left alone by the resolutions. -/
theorem processMoveResolution_fields (engine : GameEngine) (resolution : MoveResolution) :
    ∃ moveLog eventBus, processMoveResolution engine resolution =
      { engine with moveLog := moveLog, eventBus := eventBus } := by
  cases resolution <;> exact ⟨_, _, rfl⟩

theorem moveLog_processMoveResolutions (engine : GameEngine)
    (resolutions : List MoveResolution) :
    (engine.processMoveResolutions resolutions).moveLog =
      resolutions.foldl MoveLog.record engine.moveLog := by
  unfold processMoveResolutions
  induction resolutions generalizing engine with
  | nil => rfl
  | cons resolution rest ih =>
    rw [List.foldl_cons, List.foldl_cons, ih]
    cases resolution <;> rfl

theorem eventBus_processMoveResolutions (engine : GameEngine)
    (resolutions : List MoveResolution) :
    (engine.processMoveResolutions resolutions).eventBus =
      engine.eventBus.map (· ++ resolutions.map GameEvent.ofResolution) := by
  unfold processMoveResolutions
  induction resolutions generalizing engine with
  | nil => simp
  | cons resolution rest ih =>
    rw [List.foldl_cons, ih]
    cases resolution <;>
      simp [processMoveResolution, publish, GameEvent.ofResolution, Function.comp_def]

section ProcessMoveResolutions

variable (engine : GameEngine) (resolutions : List MoveResolution)

theorem processMoveResolutions_fields :
    ∃ moveLog eventBus, engine.processMoveResolutions resolutions =
      { engine with moveLog := moveLog, eventBus := eventBus } :=
  processMoveResolutions_induction
    (P := fun later ↦ ∃ moveLog eventBus, later =
      { engine with moveLog := moveLog, eventBus := eventBus })
    (fun later resolution ⟨_, _, hlater⟩ ↦ by
      obtain ⟨moveLog, eventBus, hstep⟩ := processMoveResolution_fields later resolution
      exact ⟨moveLog, eventBus, by rw [hstep, hlater]⟩)
    ⟨_, _, rfl⟩ resolutions

@[simp]
theorem board_processMoveResolutions :
    (engine.processMoveResolutions resolutions).board = engine.board := by
  obtain ⟨_, _, h⟩ := processMoveResolutions_fields engine resolutions
  rw [h]

@[simp]
theorem arbiter_processMoveResolutions :
    (engine.processMoveResolutions resolutions).arbiter = engine.arbiter := by
  obtain ⟨_, _, h⟩ := processMoveResolutions_fields engine resolutions
  rw [h]

@[simp]
theorem isGameOver_processMoveResolutions :
    (engine.processMoveResolutions resolutions).isGameOver = engine.isGameOver := by
  obtain ⟨_, _, h⟩ := processMoveResolutions_fields engine resolutions
  rw [h]

@[simp]
theorem winner_processMoveResolutions :
    (engine.processMoveResolutions resolutions).winner = engine.winner := by
  obtain ⟨_, _, h⟩ := processMoveResolutions_fields engine resolutions
  rw [h]

@[simp]
theorem premoves_processMoveResolutions :
    (engine.processMoveResolutions resolutions).premoves = engine.premoves := by
  obtain ⟨_, _, h⟩ := processMoveResolutions_fields engine resolutions
  rw [h]

@[simp]
theorem nextMotionId_processMoveResolutions :
    (engine.processMoveResolutions resolutions).nextMotionId = engine.nextMotionId := by
  obtain ⟨_, _, h⟩ := processMoveResolutions_fields engine resolutions
  rw [h]

end ProcessMoveResolutions

/-! ## Premoves -/

/-- After the arrivals the engine only drops premoves and makes move requests. -/
theorem processPremoves_induction {P : GameEngine → Prop}
    (hclear : ∀ engine source, P engine → P (engine.clearPremoveAt source))
    (hmove : ∀ engine fromPos toPos, P engine → P (engine.requestMove fromPos toPos).2)
    {engine : GameEngine} (h : P engine) (completing : List Motion) :
    P (engine.processPremovesAfterAdvance completing) := by
  have htry : ∀ engine moveSource arrival, P engine →
      P (tryExecutePremove engine moveSource arrival) := by
    intro engine moveSource arrival hengine
    unfold tryExecutePremove
    split
    · exact hengine
    · simp only
      split
      · exact hclear _ _ hengine
      · split
        · exact hclear _ _ hengine
        · exact hmove _ _ _ (hclear _ _ hengine)
  have hstep : ∀ engine motion, P engine → P (processPremoveAfterAdvance engine motion) := by
    intro engine motion hengine
    unfold processPremoveAfterAdvance
    split
    · exact hengine
    · simp only
      split
      · exact hclear _ _ hengine
      · split
        · exact hclear _ _ hengine
        · exact htry _ _ _ hengine
  unfold processPremovesAfterAdvance
  split
  · exact h
  · exact List.foldlRecOn completing _ h fun later hlater motion _ ↦ hstep later motion hlater

theorem clearPremoveAt_of_none {engine : GameEngine} {source : Position}
    (hnone : engine.premoves source = none) : engine.clearPremoveAt source = engine := by
  have hsame : (fun key ↦ if key = source then none else engine.premoves key) =
      engine.premoves := by
    funext key
    rw [ite_eq_right_iff]
    rintro rfl
    exact hnone.symm
  rw [clearPremoveAt, hsame]

/-- Without premoves the engine starts nothing by itself. -/
theorem processPremoves_of_none {engine : GameEngine}
    (hpremoves : ∀ source, engine.premoves source = none) (completing : List Motion) :
    engine.processPremovesAfterAdvance completing = engine := by
  have hstep : ∀ motion, engine.processPremoveAfterAdvance motion = engine := by
    intro motion
    simp only [processPremoveAfterAdvance, clearPremoveAt_of_none (hpremoves _), tryExecutePremove,
      hpremoves, ite_self]
  unfold processPremovesAfterAdvance
  split
  · rfl
  · exact List.foldlRecOn (motive := fun later ↦ later = engine) completing _ rfl
      fun later hlater motion _ ↦ by rw [hlater, hstep]

/-- The part of the engine that the premoves leave alone. -/
theorem processPremoves_fields (engine : GameEngine) (completing : List Motion) :
    ∃ added nextMotionId premoves eventBus,
      engine.processPremovesAfterAdvance completing =
        { engine with
          arbiter := { engine.arbiter with activeMotions := engine.activeMotions ++ added }
          nextMotionId := nextMotionId
          premoves := premoves
          eventBus := eventBus } := by
  refine processPremoves_induction
    (P := fun later ↦ ∃ added nextMotionId premoves eventBus, later =
      { engine with
        arbiter := { engine.arbiter with activeMotions := engine.activeMotions ++ added }
        nextMotionId := nextMotionId
        premoves := premoves
        eventBus := eventBus })
    ?_ ?_ ⟨[], engine.nextMotionId, engine.premoves, engine.eventBus, by simp [activeMotions]⟩
    completing
  · rintro later source ⟨added, _, _, _, rfl⟩
    exact ⟨added, _, _, _, rfl⟩
  · rintro later fromPos toPos ⟨added, nextMotionId, premoves, eventBus, hlater⟩
    rcases later.requestMove_cases fromPos toPos with heq | ⟨-, heq⟩
    · rw [heq]
      exact ⟨added, _, _, _, hlater⟩
    · rw [heq]
      generalize newMove later fromPos toPos = motion
      generalize GameEvent.moveStarted (moveStartedEvent later fromPos toPos) = event
      rw [hlater]
      exact ⟨added ++ [motion], nextMotionId + 1, premoves, eventBus.map (· ++ [event]), by
        simp [start, publish, RealTimeArbiter.addMotion]⟩

section ProcessPremoves

variable (engine : GameEngine) (completing : List Motion)

@[simp]
theorem board_processPremoves :
    (engine.processPremovesAfterAdvance completing).board = engine.board := by
  obtain ⟨_, _, _, _, h⟩ := processPremoves_fields engine completing
  rw [h]

@[simp]
theorem elapsedMs_processPremoves :
    (engine.processPremovesAfterAdvance completing).elapsedMs = engine.elapsedMs := by
  obtain ⟨_, _, _, _, h⟩ := processPremoves_fields engine completing
  rw [h]
  rfl

@[simp]
theorem isGameOver_processPremoves :
    (engine.processPremovesAfterAdvance completing).isGameOver = engine.isGameOver := by
  obtain ⟨_, _, _, _, h⟩ := processPremoves_fields engine completing
  rw [h]

@[simp]
theorem winner_processPremoves :
    (engine.processPremovesAfterAdvance completing).winner = engine.winner := by
  obtain ⟨_, _, _, _, h⟩ := processPremoves_fields engine completing
  rw [h]

@[simp]
theorem moveLog_processPremoves :
    (engine.processPremovesAfterAdvance completing).moveLog = engine.moveLog := by
  obtain ⟨_, _, _, _, h⟩ := processPremoves_fields engine completing
  rw [h]

end ProcessPremoves

/-! ## Cooldowns after arrivals -/

/-- The cooldowns leave everything but the board alone, and the board looks the same. -/
theorem applyCooldownAfterArrivals_fields (engine : GameEngine) (completing : List Motion) :
    ∃ board, SameKinds board engine.board ∧
      engine.applyCooldownAfterArrivals completing = { engine with board := board } := by
  unfold applyCooldownAfterArrivals
  refine List.foldlRecOn
    (motive := fun later ↦ ∃ board, SameKinds board engine.board ∧
      later = { engine with board := board })
    completing _ ⟨engine.board, .refl _, rfl⟩ ?_
  rintro later ⟨board, hboard, rfl⟩ motion -
  simp only [applyCooldownAfterArrival]
  split
  · exact ⟨board, hboard, rfl⟩
  · split
    · exact ⟨board, hboard, rfl⟩
    · split
      · exact ⟨board, hboard, rfl⟩
      · split
        · exact ⟨board, hboard, rfl⟩
        · exact ⟨_, (SameKinds.setCell board _ (by simp)).trans hboard, rfl⟩

section ApplyCooldown

variable (engine : GameEngine) (completing : List Motion)

theorem sameKinds_applyCooldown :
    SameKinds (engine.applyCooldownAfterArrivals completing).board engine.board := by
  obtain ⟨_, hboard, h⟩ := applyCooldownAfterArrivals_fields engine completing
  rwa [h]

@[simp]
theorem arbiter_applyCooldown :
    (engine.applyCooldownAfterArrivals completing).arbiter = engine.arbiter := by
  obtain ⟨_, _, h⟩ := applyCooldownAfterArrivals_fields engine completing
  rw [h]

@[simp]
theorem isGameOver_applyCooldown :
    (engine.applyCooldownAfterArrivals completing).isGameOver = engine.isGameOver := by
  obtain ⟨_, _, h⟩ := applyCooldownAfterArrivals_fields engine completing
  rw [h]

@[simp]
theorem winner_applyCooldown :
    (engine.applyCooldownAfterArrivals completing).winner = engine.winner := by
  obtain ⟨_, _, h⟩ := applyCooldownAfterArrivals_fields engine completing
  rw [h]

@[simp]
theorem moveLog_applyCooldown :
    (engine.applyCooldownAfterArrivals completing).moveLog = engine.moveLog := by
  obtain ⟨_, _, h⟩ := applyCooldownAfterArrivals_fields engine completing
  rw [h]

@[simp]
theorem premoves_applyCooldown :
    (engine.applyCooldownAfterArrivals completing).premoves = engine.premoves := by
  obtain ⟨_, _, h⟩ := applyCooldownAfterArrivals_fields engine completing
  rw [h]

@[simp]
theorem nextMotionId_applyCooldown :
    (engine.applyCooldownAfterArrivals completing).nextMotionId = engine.nextMotionId := by
  obtain ⟨_, _, h⟩ := applyCooldownAfterArrivals_fields engine completing
  rw [h]

@[simp]
theorem eventBus_applyCooldown :
    (engine.applyCooldownAfterArrivals completing).eventBus = engine.eventBus := by
  obtain ⟨_, _, h⟩ := applyCooldownAfterArrivals_fields engine completing
  rw [h]

end ApplyCooldown

/-! ## The stages of `advanceTime` -/

/-- The moves that complete in `advanceTime ms`, as the engine computes them. -/
def completing (engine : GameEngine) (ms : ℤ) : List Motion :=
  completingMoves engine.activeMotions (engine.elapsedMs + ms)

/-- The same moves in the order in which the arbiter resolves them. -/
def arrivals (engine : GameEngine) (ms : ℤ) : List Motion :=
  (engine.completing ms).insertionSort fun a b ↦ motionLess b a = false

/-- What the first arrival of `advanceTime ms` finds. -/
def arrivalStart (engine : GameEngine) (ms : ℤ) : Tick :=
  { board := decreaseAllCooldowns engine.board ms, arrivedThisTick := [], resolutions := [] }

/-- What the last arrival of `advanceTime ms` leaves behind. -/
def arrivalTick (engine : GameEngine) (ms : ℤ) : Tick :=
  (engine.arrivals ms).foldl (resolveMoveArrival engine.activeMotions) (engine.arrivalStart ms)

/-- The arbiter returns the resolutions of these arrivals. -/
theorem resolutions_advanceTime (engine : GameEngine) (ms : ℤ) :
    (engine.arbiter.advanceTime ms engine.board).2.2 = (engine.arrivalTick ms).resolutions := rfl

/-- The state when the arrivals have been resolved and logged. -/
def afterArrivals (engine : GameEngine) (ms : ℤ) : GameEngine :=
  let checked := engine.checkGameOverFromCompletingMoves (engine.completing ms)
  let (advanced, resolutions) := checked.advanceArbiter ms
  advanced.processMoveResolutions resolutions

theorem advanceTime_eq (engine : GameEngine) (ms : ℤ) :
    engine.advanceTime ms =
      ((engine.afterArrivals ms).processPremovesAfterAdvance
        (engine.completing ms)).applyCooldownAfterArrivals (engine.completing ms) := rfl

theorem mem_completing {engine : GameEngine} {ms : ℤ} {motion : Motion} :
    motion ∈ engine.completing ms ↔
      motion ∈ engine.activeMotions ∧ motion.type = .move ∧
        motion.isExpired (engine.elapsedMs + ms) = true := by
  simp [completing, completingMoves]

/-- The moves resolved before a move complete in the same call. -/
theorem mem_completing_of_past {engine : GameEngine} {ms : ℤ} {past future : List Motion}
    {motion other : Motion} (hsplit : engine.completing ms = past ++ motion :: future)
    (hother : other ∈ past) : other ∈ engine.completing ms :=
  hsplit ▸ List.mem_append_left _ hother

/-- Both passes of the arbiter together remove exactly the expired motions. -/
theorem removeExpired_eq (motions : List Motion) (currentTimeMs : ℤ) :
    removeExpiredMotions
        (if !(completingMoves motions currentTimeMs).isEmpty then
          removeExpiredMotions motions .move currentTimeMs else motions) .jump currentTimeMs =
      motions.filter fun motion ↦ !motion.isExpired currentTimeMs := by
  split
  · simp only [removeExpiredMotions, List.filter_filter]
    apply List.filter_congr
    intro motion _
    cases htype : motion.type <;> simp
  · rename_i hnone
    have hnone' : completingMoves motions currentTimeMs = [] := by simpa using hnone
    simp only [completingMoves, List.filter_eq_nil_iff, Bool.and_eq_true, decide_eq_true_eq,
      not_and, Bool.not_eq_true] at hnone'
    apply List.filter_congr
    intro motion hmotion
    cases htype : motion.type
    · simp [hnone' motion hmotion htype]
    · simp

section AfterArrivals

variable (engine : GameEngine) (ms : ℤ)

@[simp]
theorem elapsedMs_afterArrivals : (engine.afterArrivals ms).elapsedMs = engine.elapsedMs + ms := by
  simp [afterArrivals, advanceArbiter, RealTimeArbiter.advanceTime, elapsedMs]

@[simp]
theorem activeMotions_afterArrivals :
    (engine.afterArrivals ms).activeMotions =
      engine.activeMotions.filter fun motion ↦ !motion.isExpired (engine.elapsedMs + ms) := by
  rw [← removeExpired_eq]
  simp [afterArrivals, advanceArbiter, RealTimeArbiter.advanceTime, elapsedMs, activeMotions]

@[simp]
theorem premoves_afterArrivals : (engine.afterArrivals ms).premoves = engine.premoves := by
  simp [afterArrivals, advanceArbiter]

@[simp]
theorem nextMotionId_afterArrivals :
    (engine.afterArrivals ms).nextMotionId = engine.nextMotionId := by
  simp [afterArrivals, advanceArbiter]

/-- Landing jumps only write cooldowns on the board the arrivals leave behind. -/
theorem sameKinds_afterArrivals :
    SameKinds (engine.afterArrivals ms).board (engine.arrivalTick ms).board := by
  simp only [afterArrivals, advanceArbiter, RealTimeArbiter.advanceTime, arrivalTick,
    board_processMoveResolutions, arbiter_checkGameOver, board_checkGameOver]
  exact SameKinds.foldl _ (fun board motion ↦ sameKinds_landJump _ board motion) _ _

theorem isGameOver_afterArrivals :
    (engine.afterArrivals ms).isGameOver =
      (engine.checkGameOverFromCompletingMoves (engine.completing ms)).isGameOver := by
  simp [afterArrivals, advanceArbiter]

theorem winner_afterArrivals :
    (engine.afterArrivals ms).winner =
      (engine.checkGameOverFromCompletingMoves (engine.completing ms)).winner := by
  simp [afterArrivals, advanceArbiter]

theorem moveLog_afterArrivals :
    (engine.afterArrivals ms).moveLog =
      (engine.arrivalTick ms).resolutions.foldl MoveLog.record engine.moveLog := by
  rw [afterArrivals, advanceArbiter, arbiter_checkGameOver, board_checkGameOver]
  simp only [moveLog_processMoveResolutions, moveLog_checkGameOver, resolutions_advanceTime]

end AfterArrivals

theorem board_afterArrivals (engine : GameEngine) (ms : ℤ) :
    (engine.afterArrivals ms).board =
      (if !(engine.completing ms).isEmpty then
          removeExpiredMotions engine.activeMotions .move (engine.elapsedMs + ms)
        else engine.activeMotions).foldl (landJump (engine.elapsedMs + ms))
          (engine.arrivalTick ms).board := by
  rw [afterArrivals, advanceArbiter, arbiter_checkGameOver, board_checkGameOver]
  simp only [board_processMoveResolutions]
  rfl

theorem eventBus_afterArrivals (engine : GameEngine) (ms : ℤ) :
    (engine.afterArrivals ms).eventBus =
      (engine.checkGameOverFromCompletingMoves (engine.completing ms)).eventBus.map
        (· ++ (engine.arrivalTick ms).resolutions.map GameEvent.ofResolution) := by
  rw [afterArrivals, advanceArbiter, arbiter_checkGameOver, board_checkGameOver]
  simp only [eventBus_processMoveResolutions, resolutions_advanceTime]

/-- Without premoves only the cooldowns are left to be written after the arrivals. -/
theorem advanceTime_of_none {engine : GameEngine}
    (hpremoves : ∀ source, engine.premoves source = none) (ms : ℤ) :
    engine.advanceTime ms =
      (engine.afterArrivals ms).applyCooldownAfterArrivals (engine.completing ms) := by
  rw [advanceTime_eq, processPremoves_of_none]
  rwa [premoves_afterArrivals]

theorem activeMotions_advanceTime_of_none {engine : GameEngine}
    (hpremoves : ∀ source, engine.premoves source = none) (ms : ℤ) :
    (engine.advanceTime ms).activeMotions =
      engine.activeMotions.filter fun motion ↦ !motion.isExpired (engine.elapsedMs + ms) := by
  rw [advanceTime_of_none hpremoves, activeMotions, arbiter_applyCooldown]
  exact activeMotions_afterArrivals engine ms

theorem premoves_advanceTime_of_none {engine : GameEngine}
    (hpremoves : ∀ source, engine.premoves source = none) (ms : ℤ) :
    (engine.advanceTime ms).premoves = engine.premoves := by
  rw [advanceTime_of_none hpremoves, premoves_applyCooldown, premoves_afterArrivals]

section AdvanceTime

variable (engine : GameEngine) (ms : ℤ)

@[simp]
theorem elapsedMs_advanceTime : (engine.advanceTime ms).elapsedMs = engine.elapsedMs + ms := by
  rw [advanceTime_eq, elapsedMs, arbiter_applyCooldown]
  calc
    _ = (engine.afterArrivals ms).elapsedMs := elapsedMs_processPremoves _ _
    _ = engine.elapsedMs + ms := elapsedMs_afterArrivals engine ms

/-- After `advanceTime` the motions that have not expired are followed by the premoves started. -/
theorem activeMotions_advanceTime :
    ∃ added, (engine.advanceTime ms).activeMotions =
      engine.activeMotions.filter (fun motion ↦ !motion.isExpired (engine.elapsedMs + ms)) ++
        added := by
  obtain ⟨added, _, _, _, h⟩ :=
    processPremoves_fields (engine.afterArrivals ms) (engine.completing ms)
  refine ⟨added, ?_⟩
  rw [advanceTime_eq, activeMotions, arbiter_applyCooldown, h, ← activeMotions_afterArrivals]

/-- The board shows after `advanceTime` what the arrivals leave behind. -/
theorem sameKinds_advanceTime :
    SameKinds (engine.advanceTime ms).board (engine.arrivalTick ms).board := by
  rw [advanceTime_eq]
  calc
    SameKinds _ ((engine.afterArrivals ms).processPremovesAfterAdvance
        (engine.completing ms)).board := sameKinds_applyCooldown _ _
    _ = (engine.afterArrivals ms).board := board_processPremoves _ _
    SameKinds _ (engine.arrivalTick ms).board := sameKinds_afterArrivals engine ms

theorem isGameOver_advanceTime :
    (engine.advanceTime ms).isGameOver =
      (engine.checkGameOverFromCompletingMoves (engine.completing ms)).isGameOver := by
  simp [advanceTime_eq, isGameOver_afterArrivals]

theorem winner_advanceTime :
    (engine.advanceTime ms).winner =
      (engine.checkGameOverFromCompletingMoves (engine.completing ms)).winner := by
  simp [advanceTime_eq, winner_afterArrivals]

theorem moveLog_advanceTime :
    (engine.advanceTime ms).moveLog = (engine.afterArrivals ms).moveLog := by
  simp [advanceTime_eq]

end AdvanceTime

end GameEngine

end KongFuChess.Engine
