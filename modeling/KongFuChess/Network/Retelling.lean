import KongFuChess.Engine.Contest
import KongFuChess.Engine.EventPairing
import KongFuChess.Io.BoardSetup
import KongFuChess.Network.Delivery

/-!
# The game told over the wire

Every connection is told the completed moves and the captures of the game. Somebody who knows the
first board and these texts, but none of the rules except promotion, can move the pieces on a board
of his own. That board is the board of the engine, except for the pieces that were removed as second
arrivals on a square: no event tells of them, and on his board they stay where they were until
another piece comes to their square.
-/

namespace KongFuChess.Network

open Model Realtime Rules Events Engine

/-! ## Retelling one event -/

/-- The type of the piece that a completed move brings to its square. -/
def arrivedType (board : Board) (event : CompletedMoveEvent) : PieceType :=
  if event.pieceType = .pawn ∧ event.toPos.row = lastRow board event.pieceColor then .queen
  else event.pieceType

/-- What an event tells about the board. -/
def retell (board : Board) : GameEvent → Board
  | .completedMove event =>
    (board.setCell event.toPos (.of (arrivedType board event) event.pieceColor)).setCell
      event.fromPos Piece.empty
  | .jumpCapture event => board.removePieceAt event.victimFrom
  | _ => board

/-- What a text tells about the board. -/
def retellText (board : Board) (json : StdString) : Board :=
  match parseServerGameEvent json with
  | some event => retell board event
  | none => board

/-- The time stamps are of no use to the reader. -/
theorem retell_received (board : Board) (event : GameEvent) :
    retell board (received event) = retell board event := by
  cases event <;> rfl

theorem retellText_serialize {event : GameEvent} (h : Nameable event) (board : Board) :
    retellText board (serializeServerEvent event) = retell board event := by
  rw [retellText, parse_serialize h]
  exact retell_received board event

theorem foldl_retellText {events : List GameEvent} (h : ∀ event ∈ events, Nameable event)
    (board : Board) :
    (events.map serializeServerEvent).foldl retellText board = events.foldl retell board := by
  induction events generalizing board with
  | nil => rfl
  | cons event events ih =>
    rw [List.map_cons, List.foldl_cons, List.foldl_cons,
      retellText_serialize (h event (List.mem_cons_self ..)),
      ih fun other hother ↦ h other (List.mem_cons_of_mem _ hother)]

/-- An event that tells nothing about the board. -/
def Quiet (event : GameEvent) : Prop := ∀ board, retell board event = board

theorem foldl_quiet {events : List GameEvent} (h : ∀ event ∈ events, Quiet event)
    (board : Board) : events.foldl retell board = board := by
  induction events with
  | nil => rfl
  | cons event events ih =>
    rw [List.foldl_cons, h event (List.mem_cons_self ..),
      ih fun other hother ↦ h other (List.mem_cons_of_mem _ hother)]

/-! ## One arrival -/

/-- A piece that disappears without a word: its square, its type and its colour. -/
abbrev LostPiece := Position × PieceType × Color

/-- The board that has been told, if these pieces were removed without a word: one of them may still
be shown on its square. -/
structure Retold (lost : List LostPiece) (told board : Board) : Prop where
  inBounds : ∀ pos, told.inBounds pos = board.inBounds pos
  rows : told.rows = board.rows
  cells : ∀ pos, (told.cell pos).kind = (board.cell pos).kind ∨
    (board.cell pos).isEmpty = true ∧ (pos, (told.cell pos).kind) ∈ lost

def lostAt (motion : Motion) : Outcome → List LostPiece
  | .lostTie => [(motion.source, motion.pieceType, motion.pieceColor)]
  | _ => []

namespace Retold

variable {lost : List LostPiece} {told board : Board}

theorem refl (board : Board) : Retold [] board board := ⟨fun _ ↦ rfl, rfl, fun _ ↦ .inl rfl⟩

theorem mono (h : Retold lost told board) (more : List LostPiece) :
    Retold (lost ++ more) told board where
  inBounds := h.inBounds
  rows := h.rows
  cells := fun pos ↦ (h.cells pos).imp_right fun hlost ↦
    ⟨hlost.1, List.mem_append_left _ hlost.2⟩

/-- Cooldowns are not told. -/
theorem congr (h : Retold lost told board) {later : Board} (hsame : SameKinds later board) :
    Retold lost told later where
  inBounds := fun pos ↦ (h.inBounds pos).trans (hsame.inBounds pos).symm
  rows := h.rows.trans hsame.rows.symm
  cells := fun pos ↦ (h.cells pos).imp (fun hkind ↦ hkind.trans (hsame.kind pos).symm) fun hlost ↦
    ⟨(hsame.isEmpty pos).trans hlost.1, hlost.2⟩

theorem removePieceAt (h : Retold lost told board) (square : Position) :
    Retold lost (told.removePieceAt square) (board.removePieceAt square) where
  inBounds := fun pos ↦ by rw [inBounds_removePieceAt, inBounds_removePieceAt, h.inBounds]
  rows := by rw [rows_removePieceAt, rows_removePieceAt, h.rows]
  cells := fun pos ↦ by
    rw [cell_removePieceAt, cell_removePieceAt]
    split
    · exact .inl rfl
    · exact h.cells pos

theorem landOn (h : Retold lost told board) {motion : Motion} (hon : motion.OnBoard board)
    (hvalid : motion.Valid board) :
    Retold lost (retell told (.completedMove (completedMoveOf board motion)))
      (landOn board motion) where
  inBounds := fun pos ↦ by
    rw [inBounds_landOn, ← h.inBounds pos]
    simp [retell]
  rows := by
    rw [rows_landOn, ← h.rows]
    simp [retell]
  cells := fun pos ↦ by
    have hsource : told.inBounds motion.source = true := (h.inBounds _).trans hon.source
    have hdestination : told.inBounds motion.destination = true :=
      (h.inBounds _).trans hon.destination
    rw [cell_landOn hon, retell]
    simp only [completedMoveOf]
    by_cases hfrom : pos = motion.source
    · subst hfrom
      rw [if_neg hon.ne, if_pos rfl, Board.cell_setCell_self _ _ (by simpa using hsource)]
      exact .inl rfl
    · rw [Board.cell_setCell_ne _ _ hfrom, if_neg hfrom]
      by_cases hto : pos = motion.destination
      · subst hto
        rw [if_pos rfl, Board.cell_setCell_self _ _ hdestination]
        have hlanded := landedPiece_is hvalid
        rw [landedType, ← lastRow_congr h.rows] at hlanded
        left
        exact Prod.ext hlanded.2.1.symm hlanded.2.2.symm
      · rw [if_neg hto, Board.cell_setCell_ne _ _ hto]
        exact h.cells pos

/-- What one arrival does is told, except for a removal of a second arrival. -/
theorem settle {activeMotions : List Motion} {tick : Tick} {motion : Motion} {result : Outcome}
    (h : Retold lost told tick.board) (hon : motion.OnBoard tick.board)
    (hspec : Occurs activeMotions tick motion result) :
    Retold (lost ++ lostAt motion result)
      (((emitted tick motion result).map GameEvent.ofResolution).foldl retell told)
      (tick.settle motion result).board := by
  cases result with
  | stale | blocked => exact h.mono []
  | jumpCaptured => exact (h.removePieceAt motion.source).mono []
  | lostTie =>
    refine ⟨fun pos ↦ ?_, ?_, fun pos ↦ ?_⟩
    · rw [inBounds_settle]
      exact h.inBounds pos
    · rw [rows_settle]
      exact h.rows
    · simp only [Tick.settle, emitted, lostAt, List.map_nil, List.foldl_nil]
      rw [cell_removePieceAt]
      by_cases hpos : pos = motion.source
      · -- The reader still sees the piece that the move was started with.
        subst hpos
        have hkind := (h.cells motion.source).resolve_right fun hempty ↦
          Bool.false_ne_true (hspec.1.not_isEmpty.symm.trans hempty.1)
        have hshown : (told.cell motion.source).kind = (motion.pieceType, motion.pieceColor) :=
          hkind.trans (Prod.ext hspec.1.type hspec.1.color)
        rw [if_pos rfl, hshown]
        exact .inr ⟨rfl, List.mem_append_right _ (List.mem_singleton_self _)⟩
      · rw [if_neg hpos]
        exact (h.mono _).cells pos
  | landed => exact (h.landOn hon hspec.1).mono []

end Retold

/-! ## One operation -/

/-- The pieces that an operation removes without a word. -/
def lostPiecesIn (engine : GameEngine) : Op → List LostPiece
  | .advanceTime ms =>
    (engine.completing ms).flatMap fun motion ↦ lostAt motion (engine.result ms motion)
  | _ => []

/-- The events published between two states name what they are about, and they tell how the board
has changed, apart from the given pieces. -/
def Recounts (engine later : GameEngine) (lost : List LostPiece) : Prop :=
  ∃ added, later.eventBus = engine.eventBus.map (· ++ added) ∧
    (∀ event ∈ added, Nameable event) ∧
    ∀ before told, Retold before told engine.board →
      Retold (before ++ lost) (added.foldl retell told) later.board

theorem quiet_of_requestOf {event : GameEvent} {op : Op} (h : requestOf event = some op) :
    Quiet event := by
  cases event with
  | moveStarted | jumpStarted => exact fun _ ↦ rfl
  | gameStarted | completedMove | jumpCapture | gameEnded => simp [requestOf] at h

namespace Recounts

variable {engine later last : GameEngine} {lost more : List LostPiece}

theorem of_unchanged (hbus : later.eventBus = engine.eventBus)
    (hboard : later.board = engine.board) : Recounts engine later [] := by
  refine ⟨[], ?_, fun _ hmem ↦ absurd hmem List.not_mem_nil, ?_⟩
  · rw [hbus]
    simp
  · intro before told htold
    rw [hboard]
    exact htold.mono []

theorem trans (h : Recounts engine later lost) (h' : Recounts later last more) :
    Recounts engine last (lost ++ more) := by
  obtain ⟨added, hadded, hnameable, htells⟩ := h
  obtain ⟨added', hadded', hnameable', htells'⟩ := h'
  refine ⟨added ++ added', ?_, ?_, ?_⟩
  · rw [hadded', hadded, Option.map_map]
    simp only [Function.comp_def, List.append_assoc]
  · intro event hmem
    rcases List.mem_append.1 hmem with hmem | hmem
    · exact hnameable event hmem
    · exact hnameable' event hmem
  · intro before told htold
    rw [List.foldl_append, ← List.append_assoc]
    exact htells' _ _ (htells _ _ htold)

/-- A request does not change the board, and the event that announces it says nothing about it. -/
theorem of_request {op : Op} {event : GameEvent} (hevent : requestOf event = some op)
    (hbus : engine.eventBus.isSome = true)
    (hstandard : ∀ pos, engine.board.inBounds pos = true ↔ Io.OnStandardBoard pos) :
    Recounts engine (engine.step op) [] := by
  by_cases haccepted : engine.answer op = some true
  · obtain ⟨events, hevents⟩ := Option.isSome_iff_exists.1 hbus
    obtain ⟨started, hstarted, hpublished, hnameable⟩ := eventBus_of_answer hevents haccepted
    have hop : ∀ ms, op ≠ .advanceTime ms := by
      rintro ms rfl
      simp [GameEngine.answer, GameEngine.perform] at haccepted
    refine ⟨[started], by rw [hpublished, hevents, Option.map_some], ?_, ?_⟩
    · intro other hother
      rw [List.mem_singleton.1 hother]
      exact hnameable hstandard
    · intro before told htold
      rw [engine.board_step hop, List.foldl_cons, List.foldl_nil, quiet_of_requestOf hstarted]
      exact htold.mono []
  · rw [step_of_refused hevent haccepted]
    exact of_unchanged rfl rfl

end Recounts

section Calls

variable {engine : GameEngine}

/-- The resolutions of a call tell its arrivals. -/
theorem Retold.arrivalTick {lost : List LostPiece} {told : Board}
    (h : Retold lost told engine.board) (hlife : engine.Lifecycle) (ms : ℕ) :
    Retold (lost ++ lostPiecesIn engine (.advanceTime ms))
      (((engine.arrivalTick ms).resolutions.map GameEvent.ofResolution).foldl retell told)
      (engine.arrivalTick ms).board := by
  refine (hlife.turns ms (I := fun past tick ↦
    Retold (lost ++ past.flatMap fun motion ↦ lostAt motion (engine.result ms motion))
      ((tick.resolutions.map GameEvent.ofResolution).foldl retell told) tick.board) ?_ ?_).2
  · rw [List.flatMap_nil, List.append_nil]
    exact h.congr (engine.sameKinds_arrivalStart ms)
  · intro past motion future _ hon hpast
    rw [resolutions_settle, List.map_append, List.foldl_append, List.flatMap_append,
      List.flatMap_cons, List.flatMap_nil, List.append_nil, ← List.append_assoc]
    exact hpast.settle hon (engine.result_spec ms motion)

variable (hstandard : ∀ pos, engine.board.inBounds pos = true ↔ Io.OnStandardBoard pos)
include hstandard

/-- The moves that premoves start have names, and they do not change the board yet. -/
theorem publishes_premoves (completing : List Motion) :
    engine.Publishes (engine.processPremovesAfterAdvance completing)
      (fun event ↦ Quiet event ∧ Nameable event) := by
  refine (GameEngine.processPremoves_induction (P := fun later ↦ later.board = engine.board ∧
    engine.Publishes later fun event ↦ Quiet event ∧ Nameable event) ?_ ?_
    ⟨rfl, .refl engine _⟩ completing).2
  · exact fun _ _ hlater ↦ hlater
  · intro later fromPos toPos hlater
    refine GameEngine.requestMove_induction (P := fun next ↦ next.board = engine.board ∧
      engine.Publishes next fun event ↦ Quiet event ∧ Nameable event)
      (fun hguards ↦ ⟨hlater.1, ?_⟩) hlater
    have hvalid := validated_of_validateMove hguards.valid
    have hfrom := hvalid.inBounds_from
    have hto := hvalid.inBounds_to
    rw [hlater.1, hstandard] at hfrom hto
    have hnameable : Nameable (.moveStarted (later.moveStartedEvent fromPos toPos)) :=
      ⟨(Piece.isEmpty_eq_false_iff _).1 hvalid.occupied, hfrom, hto⟩
    exact hlater.2.concat ⟨fun _ ↦ rfl, hnameable⟩ (GameEngine.eventBus_start ..)

theorem recounts_advanceTime (hlife : engine.Lifecycle) (ms : ℕ) :
    Recounts engine (engine.advanceTime ms) (lostPiecesIn engine (.advanceTime ms)) := by
  obtain ⟨verdicts, hverdicts, hended⟩ :=
    engine.publishes_checkGameOver (engine.completing ms)
  have hbounds : ∀ pos, (engine.afterArrivals ms).board.inBounds pos = true ↔
      Io.OnStandardBoard pos := by
    intro pos
    rw [(GameEngine.sameKinds_afterArrivals engine ms).inBounds, hlife.inBounds_arrivalTick,
      hstandard]
  obtain ⟨starts, hstarts, hstarted⟩ := publishes_premoves hbounds (engine.completing ms)
  refine ⟨verdicts ++ ((engine.arrivalTick ms).resolutions.map GameEvent.ofResolution ++ starts),
    ?_, ?_, ?_⟩
  · rw [GameEngine.advanceTime_eq, GameEngine.eventBus_applyCooldown, hstarts,
      GameEngine.eventBus_afterArrivals, hverdicts, Option.map_map, Option.map_map]
    simp only [Function.comp_def, List.append_assoc]
  · intro event hmem
    rcases List.mem_append.1 hmem with hverdict | hmem
    · obtain ⟨ended, rfl⟩ := hended event hverdict
      trivial
    · rcases List.mem_append.1 hmem with hresolved | hstart
      · obtain ⟨resolution, hresolution, rfl⟩ := List.mem_map.1 hresolved
        exact nameable_of_mem_resolutions hlife hstandard hresolution
      · exact (hstarted event hstart).2
  · intro before told htold
    have hquiet : ∀ event ∈ verdicts, Quiet event := by
      intro event hverdict
      obtain ⟨ended, rfl⟩ := hended event hverdict
      exact fun _ ↦ rfl
    rw [List.foldl_append, List.foldl_append, foldl_quiet hquiet,
      foldl_quiet fun event hstart ↦ (hstarted event hstart).1]
    exact (htold.arrivalTick hlife ms).congr (GameEngine.sameKinds_advanceTime engine ms)

theorem recounts_step (hlife : engine.Lifecycle) (hbus : engine.eventBus.isSome = true) (op : Op) :
    Recounts engine (engine.step op) (lostPiecesIn engine op) := by
  cases op with
  | requestMove fromPos toPos =>
    have hevent : requestOf (.moveStarted (engine.moveStartedEvent fromPos toPos)) =
        some (.requestMove fromPos toPos) := rfl
    exact .of_request hevent hbus hstandard
  | requestJump pos =>
    have hevent : requestOf (.jumpStarted (engine.jumpStartedEvent pos)) =
        some (.requestJump pos) := rfl
    exact .of_request hevent hbus hstandard
  | queuePremove => exact .of_unchanged rfl rfl
  | remoteGameEnded winner =>
    rw [GameEngine.step_remoteGameEnded]
    split
    · exact .of_unchanged rfl rfl
    · exact .of_unchanged rfl rfl
  | advanceTime ms => exact recounts_advanceTime hstandard hlife ms

omit hstandard in
theorem inBounds_step (hlife : engine.Lifecycle) (op : Op) (pos : Position) :
    (engine.step op).board.inBounds pos = engine.board.inBounds pos := by
  by_cases hop : ∃ ms, op = .advanceTime ms
  · obtain ⟨ms, rfl⟩ := hop
    exact hlife.inBounds_advanceTime ms pos
  · rw [engine.board_step fun ms heq ↦ hop ⟨ms, heq⟩]

theorem recounts_run (hlife : engine.Lifecycle) (hbus : engine.eventBus.isSome = true)
    (ops : List Op) :
    Recounts engine (engine.run ops)
      (Transition.emissions GameEngine.step lostPiecesIn engine ops) := by
  induction ops generalizing engine with
  | nil => exact .of_unchanged rfl rfl
  | cons op ops ih =>
    have hstep := recounts_step hstandard hlife hbus op
    have hbus' : (engine.step op).eventBus.isSome = true := by
      obtain ⟨added, hadded, -⟩ := hstep
      rw [hadded, Option.isSome_map, hbus]
    exact hstep.trans (ih (fun pos ↦ by rw [inBounds_step hlife, hstandard]) (hlife.step op) hbus')

end Calls

/-- The texts of a game are the game. On the standard board, moving the pieces as the texts of all
published events say gives the board of the engine, except that a piece removed as the second
arrival on its square is left on the square it came from: where the boards differ, the engine's is
empty and the other one shows such a piece. -/
theorem retold_run (before : GameEngine)
    (hstandard : ∀ pos, before.board.inBounds pos = true ↔ Io.OnStandardBoard pos)
    (ops : List Op) :
    let engine := before.attachBus.reset
    ∃ events, (engine.run ops).eventBus = some events ∧
      ∀ pos,
        let told := ((events.map serializeServerEvent).foldl retellText before.board).cell pos
        told.kind = ((engine.run ops).board.cell pos).kind ∨
          ((engine.run ops).board.cell pos).isEmpty = true ∧
            (pos, told.kind) ∈ Transition.emissions GameEngine.step lostPiecesIn engine ops := by
  intro engine
  obtain ⟨events, hevents, hnameable, htells⟩ :=
    @recounts_run engine hstandard (GameEngine.lifecycle_reset _) rfl ops
  refine ⟨events, hevents, fun pos ↦ ?_⟩
  rw [foldl_retellText hnameable]
  exact (htells [] before.board (.refl _)).cells pos

/-- A pawn makes a double step on the standard board. -/
theorem retold_run_opening :
    let engine := ({ board := Io.setupStandardBoard } : GameEngine).attachBus.reset
    let ops := [Op.requestMove ⟨6, 4⟩ ⟨4, 4⟩, .advanceTime 2000]
    ∃ events, (engine.run ops).eventBus = some events ∧
      ∀ pos,
        let told :=
          ((events.map serializeServerEvent).foldl retellText Io.setupStandardBoard).cell pos
        told.kind = ((engine.run ops).board.cell pos).kind ∨
          ((engine.run ops).board.cell pos).isEmpty = true ∧
            (pos, told.kind) ∈ Transition.emissions GameEngine.step lostPiecesIn engine ops :=
  retold_run { board := Io.setupStandardBoard } (fun pos ↦ Io.inBounds_setupStandardBoard pos) _

end KongFuChess.Network
