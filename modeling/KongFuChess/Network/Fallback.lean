import KongFuChess.Engine.PawnCaptures
import KongFuChess.Engine.Uncontested
import KongFuChess.Network.ClientGameSync
import KongFuChess.Rules.Chess

/-!
# Making up for a missed start

A client that hears of a completed move without having heard of its start requests the move itself
and plays it to its end. The request is checked like any other, so it depends on what the report
does not tell: whether the client's piece is rested and, for a pawn that goes two rows, whether it
is marked as moved. And the report reaches the client only if the squares have names.
-/

namespace KongFuChess.Network

open Model Realtime Rules Events Engine

/-! ## Playing without disturbance -/

/-- Nothing contests the motions in flight and no premove waits for them. -/
structure Undisturbed (engine : GameEngine) : Prop where
  lifecycle : engine.Lifecycle
  uncontested : engine.Uncontested
  premoves : ∀ source, engine.premoves source = none

/-- The later engine is on its way to the same board. -/
structure Plays (engine later : GameEngine) : Prop where
  undisturbed : Undisturbed later
  destined : later.destined = engine.destined
  rows : later.board.rows = engine.board.rows
  inBounds : ∀ pos, later.board.inBounds pos = engine.board.inBounds pos

theorem undisturbed_of_idle {engine : GameEngine} (hidle : engine.activeMotions = [])
    (hpremoves : ∀ source, engine.premoves source = none) : Undisturbed engine := by
  have hnone := List.eq_nil_iff_forall_not_mem.1 hidle
  constructor
  · constructor
    · rw [hidle]
      exact .nil
    · exact fun motion hmem ↦ absurd hmem (hnone motion)
    · exact fun motion hmem ↦ absurd hmem (hnone motion)
    · exact fun motion hmem ↦ absurd hmem (hnone motion)
    · exact fun motion hmem ↦ absurd hmem (hnone motion)
    · rw [hidle]
      exact .nil
    · exact fun motion hmem ↦ absurd hmem (hnone motion)
    · exact fun motion hmem ↦ absurd hmem (hnone motion)
  · constructor
    · rw [hidle]
      exact .nil
    · exact fun motion hmem ↦ absurd hmem (hnone motion)
    · exact fun motion hmem ↦ absurd hmem (hnone motion)
  · exact hpremoves

namespace Plays

variable {engine later last : GameEngine}

theorem refl (h : Undisturbed engine) : Plays engine engine := ⟨h, rfl, rfl, fun _ ↦ rfl⟩

theorem trans (h : Plays engine later) (h' : Plays later last) : Plays engine last :=
  ⟨h'.undisturbed, h'.destined.trans h.destined, h'.rows.trans h.rows,
    fun pos ↦ (h'.inBounds pos).trans (h.inBounds pos)⟩

theorem advanceTime (h : Undisturbed engine) (ms : ℕ) : Plays engine (engine.advanceTime ms) where
  undisturbed :=
    { lifecycle := h.lifecycle.advanceTime ms
      uncontested := h.uncontested.advanceTime h.lifecycle h.premoves ms
      premoves := by
        rw [GameEngine.premoves_advanceTime_of_none h.premoves]
        exact h.premoves }
  destined := h.uncontested.destined_advanceTime h.lifecycle h.premoves ms
  rows := h.lifecycle.rows_advanceTime ms
  inBounds := h.lifecycle.inBounds_advanceTime ms

theorem advanceFrames (h : Undisturbed engine) (frames : ℕ) :
    Plays engine (ClientGameSync.advanceFrames frames engine) := by
  induction frames generalizing engine with
  | zero => exact refl h
  | succ frames ih =>
    rw [ClientGameSync.advanceFrames]
    split
    · exact refl h
    · have hframe : Plays engine (engine.advanceTime ClientGameSync.kSyncFrameMs) :=
        advanceTime h 16
      exact hframe.trans (ih hframe.undisturbed)

/-- A motion that is still in flight after the frames has been so all the time. -/
theorem mem_advanceFrames (h : Undisturbed engine) {frames : ℕ} {motion : Motion}
    (hmem : motion ∈ (ClientGameSync.advanceFrames frames engine).activeMotions) :
    motion ∈ engine.activeMotions ∧
      (ClientGameSync.advanceFrames frames engine).elapsedMs = engine.elapsedMs + 16 * frames := by
  induction frames generalizing engine with
  | zero => exact ⟨hmem, by simp [ClientGameSync.advanceFrames]⟩
  | succ frames ih =>
    rw [ClientGameSync.advanceFrames] at hmem ⊢
    split at hmem
    · rename_i hidle
      rw [List.isEmpty_iff.1 hidle] at hmem
      exact absurd hmem List.not_mem_nil
    · rename_i hbusy
      rw [if_neg hbusy]
      have hframe : Plays engine (engine.advanceTime ClientGameSync.kSyncFrameMs) :=
        advanceTime h 16
      obtain ⟨hmem, helapsed⟩ := ih hframe.undisturbed hmem
      rw [GameEngine.activeMotions_advanceTime_of_none h.premoves, List.mem_filter] at hmem
      refine ⟨hmem.1, ?_⟩
      rw [helapsed, GameEngine.elapsedMs_advanceTime, ClientGameSync.kSyncFrameMs]
      push_cast
      ring

/-- Motions of at most twelve seconds that are just starting have landed when the loop is done. -/
theorem activeMotions_advanceUntilIdle (h : Undisturbed engine)
    (hshort : ∀ motion ∈ engine.activeMotions,
      motion.startedAtMs + motion.durationMs ≤ engine.elapsedMs + 12000) :
    (ClientGameSync.advanceUntilIdle engine).activeMotions = [] := by
  rw [List.eq_nil_iff_forall_not_mem]
  intro motion hmem
  obtain ⟨hactive, helapsed⟩ := mem_advanceFrames h hmem
  have hlater := advanceFrames h (ClientGameSync.kMaxSyncAdvanceMs / 16)
  have hrunning := hlater.undisturbed.lifecycle.unexpired motion hmem
  rw [GameEngine.isExpired_eq_false_iff, helapsed] at hrunning
  have hend := hshort motion hactive
  simp only [ClientGameSync.kMaxSyncAdvanceMs] at hrunning
  omega

end Plays

/-! ## What a message can do to an idle client -/

section Idle

variable {client : GameEngine}

/-- A request of an idle client is refused, or its motion is all that is to come. -/
theorem request_of_idle (h : Undisturbed client) (hidle : client.activeMotions = []) {op : Op}
    (haccepted : client.answer op = some true) :
    Undisturbed (client.step op) ∧
      (client.step op).destined =
        GameEngine.concludeRequest client.board.rows (kinds client.board) op := by
  have hnone := List.eq_nil_iff_forall_not_mem.1 hidle
  have hfree : client.Free op := by
    cases op with
    | requestMove | requestJump => exact fun motion hmem ↦ absurd hmem (hnone motion)
    | queuePremove | advanceTime | remoteGameEnded => trivial
  obtain ⟨huncontested, hdestined⟩ := h.uncontested.accept haccepted hfree
  rw [GameEngine.destined_of_activeMotions hidle] at hdestined
  refine ⟨⟨h.lifecycle.step op, huncontested, ?_⟩, hdestined⟩
  cases op with
  | requestMove fromPos toPos =>
    exact GameEngine.requestMove_induction
      (P := fun later ↦ ∀ source, later.premoves source = none) (fun _ ↦ h.premoves) h.premoves
  | requestJump pos =>
    exact GameEngine.requestJump_induction
      (P := fun later ↦ ∀ source, later.premoves source = none) (fun _ ↦ h.premoves) h.premoves
  | queuePremove | advanceTime | remoteGameEnded =>
    simp [GameEngine.answer, GameEngine.perform] at haccepted

theorem onStandardBoard_of_requireSquare {text : StdString} {pos : Position}
    (h : requireSquare text = some pos) : Io.OnStandardBoard pos := by
  rw [requireSquare] at h
  rcases Io.algebraicToPosition_cases text with hnone | ⟨hsquare, -⟩
  · rw [hnone] at h
    exact absurd h.symm (Option.some_ne_none pos)
  · split at h
    · exact absurd h.symm (Option.some_ne_none pos)
    · rw [← Option.some.inj h]
      exact hsquare

theorem onStandardBoard_of_parseMoveStarted {json : StdString} {event : MoveStartedEvent}
    (h : parseMoveStarted json = some event) :
    Io.OnStandardBoard event.fromPos ∧ Io.OnStandardBoard event.toPos := by
  simp only [parseMoveStarted, Option.bind_eq_bind, Option.bind_eq_some_iff] at h
  obtain ⟨_, -, _, -, _, -, _, -, _, -, fromPos, hfrom, toPos, hto, heq⟩ := h
  rw [← Option.some.inj heq]
  exact ⟨onStandardBoard_of_requireSquare hfrom, onStandardBoard_of_requireSquare hto⟩

/-- The report of a move that is over can be read as the report of its start. -/
theorem parseMoveStarted_of_parseCompletedMove {json : StdString} {event : CompletedMoveEvent}
    (h : parseCompletedMove json = some event) :
    parseMoveStarted json = some
      { timestampMs := event.timestampMs
        pieceType := event.pieceType
        pieceColor := event.pieceColor
        fromPos := event.fromPos
        toPos := event.toPos } := by
  simp only [parseCompletedMove, Option.bind_eq_bind, Option.bind_eq_some_iff] at h
  obtain ⟨_, htimestamp, _, hpiece, _, hsource, _, hdestination, _, hlabel, _, hfrom, _, hto,
    heq⟩ := h
  rw [← Option.some.inj heq]
  simp only [parseMoveStarted, htimestamp, hpiece, hsource, hdestination, hlabel, hfrom, hto,
    Option.bind_eq_bind, Option.bind_some]

/-- The squares of a move that has been read are squares of a standard board. -/
def MoveNamed : GameEvent → Prop
  | .moveStarted event => Io.OnStandardBoard event.fromPos ∧ Io.OnStandardBoard event.toPos
  | .completedMove event => Io.OnStandardBoard event.fromPos ∧ Io.OnStandardBoard event.toPos
  | _ => True

theorem moveNamed_of_parse {json : StdString} {event : GameEvent}
    (h : parseServerGameEvent json = some event) : MoveNamed event := by
  rw [parseServerGameEvent] at h
  split at h
  · obtain ⟨_, -, rfl⟩ := Option.map_eq_some_iff.1 h
    trivial
  · obtain ⟨_, hstarted, rfl⟩ := Option.map_eq_some_iff.1 h
    exact onStandardBoard_of_parseMoveStarted hstarted
  · obtain ⟨_, -, rfl⟩ := Option.map_eq_some_iff.1 h
    trivial
  · obtain ⟨_, hcompleted, rfl⟩ := Option.map_eq_some_iff.1 h
    exact onStandardBoard_of_parseMoveStarted (parseMoveStarted_of_parseCompletedMove hcompleted)
  · obtain ⟨_, -, rfl⟩ := Option.map_eq_some_iff.1 h
    trivial
  · obtain ⟨_, -, rfl⟩ := Option.map_eq_some_iff.1 h
    trivial
  · exact absurd h.symm (Option.some_ne_none event)

theorem distance_le_of_onStandardBoard {fromPos toPos : Position}
    (hfrom : Io.OnStandardBoard fromPos) (hto : Io.OnStandardBoard toPos) :
    distance fromPos toPos ≤ 7 := by
  unfold Io.OnStandardBoard at hfrom hto
  unfold distance
  omega

/-- What an idle client is on its way to after a message: what it shows, or what it shows after one
move between squares of a standard board. -/
def MovesStandard (client later : GameEngine) : Prop :=
  later.destined = kinds client.board ∨ ∃ fromPos toPos, Io.OnStandardBoard fromPos ∧
    Io.OnStandardBoard toPos ∧
    later.destined = relocate client.board.rows (kinds client.board) fromPos toPos

theorem movesStandard_of_unchanged (hidle : client.activeMotions = []) :
    MovesStandard client client := .inl (GameEngine.destined_of_activeMotions hidle)

theorem MovesStandard.plays {later last : GameEngine} (h : MovesStandard client later)
    (hplays : Plays later last) : MovesStandard client last := by
  unfold MovesStandard
  rw [hplays.destined]
  exact h

/-- The move request of an idle client is refused, or the move is all that is to come. -/
theorem requestMove_of_idle (h : Undisturbed client) (hidle : client.activeMotions = [])
    (fromPos toPos : Position) :
    client.requestMove fromPos toPos = (false, client) ∨
      client.MoveAccepted fromPos toPos ∧ (client.requestMove fromPos toPos).1 = true ∧
        Undisturbed (client.requestMove fromPos toPos).2 ∧
        (client.requestMove fromPos toPos).2.destined =
          relocate client.board.rows (kinds client.board) fromPos toPos := by
  rcases client.requestMove_cases fromPos toPos with heq | ⟨haccepted, heq⟩
  · exact .inl heq
  · have hanswer : client.answer (.requestMove fromPos toPos) = some true := by
      simp [GameEngine.answer, GameEngine.perform, heq]
    have hrequest := request_of_idle h hidle hanswer
    refine .inr ⟨haccepted, by rw [heq], hrequest⟩

/-- The jump request of an idle client is refused, or it leaves the board as it is to be. -/
theorem requestJump_of_idle (h : Undisturbed client) (hidle : client.activeMotions = [])
    (pos : Position) :
    client.requestJump pos = (false, client) ∨
      (client.requestJump pos).1 = true ∧ Undisturbed (client.requestJump pos).2 ∧
        MovesStandard client (client.requestJump pos).2 := by
  rcases client.requestJump_cases pos with heq | ⟨-, heq⟩
  · exact .inl heq
  · have hanswer : client.answer (.requestJump pos) = some true := by
      simp [GameEngine.answer, GameEngine.perform, heq]
    obtain ⟨hundisturbed, hdestined⟩ := request_of_idle h hidle hanswer
    exact .inr ⟨by rw [heq], hundisturbed, .inl hdestined⟩

theorem movesStandard_startMove (h : Undisturbed client) (hidle : client.activeMotions = [])
    {fromPos toPos : Position} (hfrom : Io.OnStandardBoard fromPos)
    (hto : Io.OnStandardBoard toPos) :
    MovesStandard client (client.requestMove fromPos toPos).2 := by
  rcases requestMove_of_idle h hidle fromPos toPos with heq | ⟨-, -, -, hdestined⟩
  · rw [heq]
    exact movesStandard_of_unchanged hidle
  · exact .inr ⟨fromPos, toPos, hfrom, hto, hdestined⟩

/-- Whatever an idle client hears, its board changes at most by a move between two squares of a
standard board. -/
theorem movesStandard_applyMessage (h : Undisturbed client) (hidle : client.activeMotions = [])
    (json : StdString) : MovesStandard client (ClientGameSync.applyMessage json client).2 := by
  have hsame := movesStandard_of_unchanged hidle
  rw [ClientGameSync.applyMessage]
  cases hparse : parseServerGameEvent json with
  | none => exact hsame
  | some event =>
    cases event with
    | gameStarted started => exact hsame
    | gameEnded ended => exact hsame
    | moveStarted started =>
      obtain ⟨hfrom, hto⟩ := moveNamed_of_parse hparse
      exact movesStandard_startMove h hidle hfrom hto
    | jumpStarted started =>
      rcases requestJump_of_idle h hidle started.square with heq | ⟨-, -, hmoves⟩
      · simp only [ClientGameSync.applyEvent, ClientGameSync.startJump, heq]
        exact hsame
      · exact hmoves
    | completedMove move =>
      obtain ⟨hfrom, hto⟩ := moveNamed_of_parse hparse
      have hmoves := movesStandard_startMove h hidle hfrom hto
      simp only [ClientGameSync.applyEvent, ClientGameSync.syncCompletedMove]
      split
      · exact hsame
      · split
        · exact hsame
        · rcases requestMove_of_idle h hidle move.fromPos move.toPos with
            heq | ⟨-, hanswer, hundisturbed, -⟩
          · simp only [heq, Bool.not_false, ↓reduceIte]
            exact hsame
          · simp only [hanswer, Bool.not_true, Bool.false_eq_true, ↓reduceIte]
            exact hmoves.plays (Plays.advanceFrames hundisturbed _)
    | jumpCapture jump =>
      simp only [ClientGameSync.applyEvent, ClientGameSync.syncJumpCapture]
      split
      · exact hsame
      · rcases requestJump_of_idle h hidle jump.jumpSquare with
          heq | ⟨hanswer, hundisturbed, hmoves⟩
        · simp only [heq, Bool.not_false, ↓reduceIte]
          exact hsame
        · simp only [hanswer, Bool.not_true, Bool.false_eq_true, ↓reduceIte]
          exact hmoves.plays (Plays.advanceFrames hundisturbed _)

end Idle

/-! ## The geometry on the client's board -/

section Geometry

variable {left right : Board} {fromPos toPos : Position}

theorem clearBetween_congr (hsame : SameKinds left right) :
    ClearBetween left fromPos toPos ↔ ClearBetween right fromPos toPos := by
  unfold ClearBetween
  simp only [hsame.isEmpty]

theorem natAbs_forwardRow (color : Color) : (forwardRow color).natAbs = 1 := by
  cases color <;> rfl

/-- A pawn's move that fits a fresh pawn fits any other on a board that looks the same, unless it
goes two rows. -/
theorem pawnMove_iff_of_fresh (hsame : SameKinds left right) {pawn fresh : Piece}
    (hcolor : pawn.color = fresh.color) (hmove : PawnMove right fromPos toPos fresh) :
    PawnMove left fromPos toPos pawn ↔
      (rowDistance fromPos toPos = 2 → pawn.hasMoved = false) := by
  have hforward := natAbs_forwardRow fresh.color
  constructor
  · intro h hrows
    unfold rowDistance at hrows
    rcases h with ⟨hrow, -, -⟩ | ⟨-, -, -, hunmoved, -, -⟩ | ⟨hrow, -, -, -⟩
    · rw [hcolor] at hrow
      omega
    · exact hunmoved
    · rw [hcolor] at hrow
      omega
  · intro hunmoved
    unfold rowDistance at hunmoved
    rcases hmove with ⟨hrow, hcol, hfree⟩ | ⟨hrow, hcol, hhome, -, hpassed, hfree⟩ |
      ⟨hrow, hcol, henemy, henemyColor⟩
    · exact .step (hcolor ▸ hrow) hcol ((hsame.isEmpty _).trans hfree)
    · apply PawnMove.twoSteps (hcolor ▸ hrow) hcol
      · rw [hcolor, homeRank, hsame.rows]
        exact hhome
      · exact hunmoved (by omega)
      · rw [hcolor]
        exact (hsame.isEmpty _).trans hpassed
      · exact (hsame.isEmpty _).trans hfree
    · apply PawnMove.takes (hcolor ▸ hrow) hcol ((hsame.isEmpty _).trans henemy)
      rw [hsame.color, hcolor]
      exact henemyColor

theorem pieceMove_iff_of_fresh (hsame : SameKinds left right) (piece : Piece) {fresh : Piece}
    (htype : piece.type = fresh.type) (hcolor : piece.color = fresh.color)
    (hmove : PieceMove right fromPos toPos fresh) :
    PieceMove left fromPos toPos piece ↔
      (fresh.type = .pawn → rowDistance fromPos toPos = 2 → piece.hasMoved = false) := by
  have hclear : ClearBetween left fromPos toPos ↔ ClearBetween right fromPos toPos :=
    clearBetween_congr hsame
  unfold PieceMove RookMove BishopMove at hmove ⊢
  rw [htype]
  cases hkind : fresh.type with
  | pawn =>
    rw [hkind] at hmove
    simp only [true_imp_iff]
    exact pawnMove_iff_of_fresh hsame hcolor hmove
  | empty | king | queen | rook | bishop | knight =>
    rw [hkind] at hmove
    simp only [hclear, reduceCtorEq, false_imp_iff, iff_true]
    exact hmove

end Geometry

/-! ## The fallback -/

/-- The squares of the move have names, and the client's piece is free to make it. -/
structure FallbackReady (client : GameEngine) (motion : Motion) : Prop where
  source_named : Io.OnStandardBoard motion.source
  destination_named : Io.OnStandardBoard motion.destination
  rested : (client.board.cell motion.source).moveCooldownRemainingMs ≤ 0
  unmoved : motion.pieceType = .pawn → rowDistance motion.source motion.destination = 2 →
    (client.board.cell motion.source).hasMoved = false

instance (client : GameEngine) (motion : Motion) : Decidable (FallbackReady client motion) :=
  decidable_of_iff (Io.OnStandardBoard motion.source ∧ Io.OnStandardBoard motion.destination ∧
      (client.board.cell motion.source).moveCooldownRemainingMs ≤ 0 ∧
      (motion.pieceType = .pawn → rowDistance motion.source motion.destination = 2 →
        (client.board.cell motion.source).hasMoved = false))
    ⟨fun ⟨source, destination, rested, unmoved⟩ ↦ ⟨source, destination, rested, unmoved⟩,
      fun h ↦ ⟨h.1, h.2, h.3, h.4⟩⟩

/-- The client shows what the host shows after the landing, and nothing is in flight. -/
def CaughtUp (later : GameEngine) (tick : Tick) (motion : Motion) : Prop :=
  SameKinds later.board (tick.settle motion .landed).board ∧ later.activeMotions = []

section Landing

variable {client : GameEngine} {tick : Tick} {motion : Motion}

/-- A landing shows on both squares of the move. -/
theorem kind_ne_of_landed (hon : motion.OnBoard tick.board) (hvalid : motion.Valid tick.board)
    (hfriendly : (tick.board.cell motion.destination).isFriendly motion.pieceColor = false) :
    ((tick.settle motion .landed).board.cell motion.source).kind ≠
        (tick.board.cell motion.source).kind ∧
      ((tick.settle motion .landed).board.cell motion.destination).kind ≠
        (tick.board.cell motion.destination).kind := by
  constructor
  · rw [cell_settle_source hon (by decide) (by decide)]
    intro hkind
    have hempty := Piece.isEmpty_congr hkind
    rw [hvalid.not_isEmpty] at hempty
    exact absurd hempty (by decide)
  · rw [cell_settle_landed hon]
    intro hkind
    rw [← Piece.isFriendly_congr hkind, Piece.isFriendly, landedPiece_isEmpty hvalid.not_isEmpty,
      landedPiece_color, hvalid.color] at hfriendly
    simp at hfriendly

/-- The host's move is about to land, and the idle client shows the same board. -/
structure Missed (client : GameEngine) (tick : Tick) (motion : Motion) : Prop where
  onBoard : motion.OnBoard tick.board
  isMove : motion.type = .move
  valid : motion.Valid tick.board
  not_friendly : (tick.board.cell motion.destination).isFriendly motion.pieceColor = false
  geometry : PieceMove tick.board motion.source motion.destination
    (.of motion.pieceType motion.pieceColor)
  not_over : client.isGameOver = false
  idle : client.activeMotions = []
  undisturbed : Undisturbed client
  sameKinds : SameKinds client.board tick.board

namespace Missed

variable (h : Missed client tick motion)
include h

theorem not_busy (pos : Position) : client.isBusyAt pos = false := by
  rw [GameEngine.not_busy_iff, h.idle]
  exact List.forall_mem_nil _

/-- The client's request is accepted when its piece is free to make the move. -/
theorem moveAccepted_iff : client.MoveAccepted motion.source motion.destination ↔
    (client.board.cell motion.source).moveCooldownRemainingMs ≤ 0 ∧
      (motion.pieceType = .pawn → rowDistance motion.source motion.destination = 2 →
        (client.board.cell motion.source).hasMoved = false) := by
  have hmover := (h.sameKinds.valid motion).2 h.valid
  have hgeometry := pieceMove_iff_of_fresh h.sameKinds (client.board.cell motion.source)
    hmover.type hmover.color h.geometry
  constructor
  · intro haccepted
    obtain ⟨hlegal, hrested⟩ := (validateMove_iff client.board _ _).1 haccepted.valid
    exact ⟨hrested, hgeometry.1 hlegal.pieceMove⟩
  · rintro ⟨hrested, hunmoved⟩
    have hlegal : LegalMove client.board motion.source motion.destination :=
      { ne := h.onBoard.ne
        inBounds_from := (h.sameKinds.inBounds _).trans h.onBoard.source
        inBounds_to := (h.sameKinds.inBounds _).trans h.onBoard.destination
        occupied := hmover.not_isEmpty
        not_own := by
          rw [hmover.color, h.sameKinds.isEmpty, h.sameKinds.color, ← Piece.isFriendly_iff,
            h.not_friendly]
          exact Bool.false_ne_true
        pieceMove := hgeometry.2 hunmoved }
    exact ⟨h.not_over, h.not_busy _, (validateMove_iff client.board _ _).2 ⟨hlegal, hrested⟩⟩

/-- The report sends the client to its own request, as nothing else explains it. -/
theorem syncCompletedMove_eq :
    ClientGameSync.syncCompletedMove client motion.source motion.destination motion.pieceType
        motion.pieceColor =
      if (client.requestMove motion.source motion.destination).1 then
        ClientGameSync.advanceUntilIdle (client.requestMove motion.source motion.destination).2
      else client := by
  have hpiece : ClientGameSync.pieceAt client.board motion.destination motion.pieceType
      motion.pieceColor = false := by
    have hfriendly := h.not_friendly
    rw [← Piece.isFriendly_congr (h.sameKinds.kind motion.destination), Piece.isFriendly]
      at hfriendly
    simp only [ClientGameSync.pieceAt]
    split
    · rfl
    · cases hempty : (client.board.cell motion.destination).isEmpty with
      | true => simp
      | false =>
        rw [hempty, Bool.not_false, Bool.true_and] at hfriendly
        simp [hfriendly]
  simp only [ClientGameSync.syncCompletedMove, hpiece, h.not_busy, Bool.false_and, Bool.or_self,
    Bool.false_eq_true, ↓reduceIte]
  rcases client.requestMove_cases motion.source motion.destination with heq | ⟨-, heq⟩
  · rw [heq]
    rfl
  · rw [heq]
    rfl

theorem nameable (hfrom : Io.OnStandardBoard motion.source)
    (hto : Io.OnStandardBoard motion.destination) :
    Nameable (.completedMove (completedMoveOf tick.board motion)) := by
  refine ⟨?_, hfrom, hto, ?_⟩
  · have hfull := h.valid.not_isEmpty
    rw [Piece.isEmpty_eq_false_iff, h.valid.type] at hfull
    exact hfull
  · intro hnone
    have hempty := (GameEngine.captured_iff tick.board motion).not.1 (not_not.2 hnone)
    rw [Bool.not_eq_false] at hempty
    simp [completedMoveOf, hempty]

/-- A report that can be read sends the client to its own request. -/
theorem applyMessage_eq (hfrom : Io.OnStandardBoard motion.source)
    (hto : Io.OnStandardBoard motion.destination) :
    (ClientGameSync.applyMessage
        (serializeServerEvent (.completedMove (completedMoveOf tick.board motion))) client).2 =
      if (client.requestMove motion.source motion.destination).1 then
        ClientGameSync.advanceUntilIdle (client.requestMove motion.source motion.destination).2
      else client :=
  calc
    _ = (ClientGameSync.applyEvent client
          (received (.completedMove (completedMoveOf tick.board motion)))).2 := by
      rw [applyMessage_serialize (h.nameable hfrom hto)]
    _ = ClientGameSync.syncCompletedMove client motion.source motion.destination motion.pieceType
          motion.pieceColor := rfl
    _ = _ := h.syncCompletedMove_eq

/-- The move of a ready client lands as the host's did. -/
theorem caughtUp (hready : FallbackReady client motion) :
    CaughtUp (ClientGameSync.applyMessage
      (serializeServerEvent (.completedMove (completedMoveOf tick.board motion))) client).2
      tick motion := by
  have haccepted := h.moveAccepted_iff.2 ⟨hready.rested, hready.unmoved⟩
  have hrequest := GameEngine.requestMove_of_accepted haccepted
  obtain ⟨-, hanswer, hundisturbed, hdestined⟩ :=
    (requestMove_of_idle h.undisturbed h.idle motion.source motion.destination).resolve_left
      fun heq ↦ by simp [hrequest] at heq
  rw [h.applyMessage_eq hready.source_named hready.destination_named, if_pos hanswer]
  have hplays := Plays.advanceFrames hundisturbed (ClientGameSync.kMaxSyncAdvanceMs / 16)
  have hidle : (ClientGameSync.advanceUntilIdle
      (client.requestMove motion.source motion.destination).2).activeMotions = [] := by
    apply Plays.activeMotions_advanceUntilIdle hundisturbed
    rw [hrequest, GameEngine.activeMotions_start, h.idle]
    intro started hmem
    obtain rfl := List.mem_singleton.1 hmem
    have hdistance := distance_le_of_onStandardBoard hready.source_named hready.destination_named
    simp only [GameEngine.newMove, GameConfig.kMoveDurationMs, GameEngine.elapsedMs_start]
    omega
  have hboard : (client.requestMove motion.source motion.destination).2.board = client.board := by
    rw [hrequest, GameEngine.board_start]
  refine ⟨⟨fun pos ↦ ?_, ?_, fun pos ↦ ?_⟩, hidle⟩
  · rw [inBounds_settle, ← h.sameKinds.inBounds, ← hboard]
    exact hplays.inBounds pos
  · rw [rows_settle, ← h.sameKinds.rows, ← hboard]
    exact hplays.rows
  · have hshown := GameEngine.destined_of_activeMotions hidle
    have hsettled := GameEngine.kinds_settle_landed h.onBoard h.isMove
    have hkinds : kinds client.board = kinds tick.board := funext h.sameKinds.kind
    rw [ClientGameSync.advanceUntilIdle, hplays.destined, hdestined, hkinds, h.sameKinds.rows]
      at hshown
    simp only [conclude, h.isMove] at hsettled
    exact congrFun (hshown.symm.trans hsettled.symm) pos

/-- A client that has caught up was ready: its board shows the move on both squares, and nothing
but its own request makes it do so. -/
theorem ready (hcaught : CaughtUp (ClientGameSync.applyMessage
      (serializeServerEvent (.completedMove (completedMoveOf tick.board motion))) client).2
      tick motion) : FallbackReady client motion := by
  obtain ⟨hsame, hidle⟩ := hcaught
  have hshown := GameEngine.destined_of_activeMotions hidle
  obtain ⟨hsource, hdestination⟩ := kind_ne_of_landed h.onBoard h.valid h.not_friendly
  have hchanged : ∀ pos, ((tick.settle motion .landed).board.cell pos).kind ≠
      (tick.board.cell pos).kind → (ClientGameSync.applyMessage
        (serializeServerEvent (.completedMove (completedMoveOf tick.board motion)))
        client).2.destined pos ≠ kinds client.board pos := by
    intro pos hne heq
    rw [hshown] at heq
    exact hne ((hsame.kind pos).symm.trans (heq.trans (h.sameKinds.kind pos)))
  have hnamed : ∀ pos, ((tick.settle motion .landed).board.cell pos).kind ≠
      (tick.board.cell pos).kind → Io.OnStandardBoard pos := by
    intro pos hne
    rcases movesStandard_applyMessage h.undisturbed h.idle (serializeServerEvent
        (.completedMove (completedMoveOf tick.board motion))) with
      hkept | ⟨fromPos, toPos, hfrom, hto, hmoved⟩
    · exact absurd (congrFun hkept pos) (hchanged pos hne)
    · have hne' := hchanged pos hne
      rw [hmoved, relocate] at hne'
      split at hne'
      · rename_i heq
        exact heq ▸ hto
      · split at hne'
        · rename_i heq
          exact heq ▸ hfrom
        · exact absurd rfl hne'
  have hfrom := hnamed _ hsource
  have hto := hnamed _ hdestination
  have haccepted : client.MoveAccepted motion.source motion.destination := by
    rcases requestMove_of_idle h.undisturbed h.idle motion.source motion.destination with
      heq | ⟨haccepted, -⟩
    · have hunchanged := hchanged _ hsource
      rw [h.applyMessage_eq hfrom hto, heq, if_neg Bool.false_ne_true] at hunchanged
      exact absurd (congrFun (GameEngine.destined_of_activeMotions h.idle) _) hunchanged
    · exact haccepted
  obtain ⟨hrested, hunmoved⟩ := h.moveAccepted_iff.1 haccepted
  exact ⟨hfrom, hto, hrested, hunmoved⟩

end Missed

end Landing

/-! ## A move of the host -/

/-- In the call of the host a move lands that fits the board at its turn. An idle client, whose
board looks like the host's at that turn, has not heard of the start. -/
structure MissedStart (host : GameEngine) (ms : ℤ) (motion : Motion) (client : GameEngine) :
    Prop where
  completing : motion ∈ host.completing ms
  landed : host.result ms motion = .landed
  geometry : PieceMove (host.turn ms motion).board motion.source motion.destination
    (.of motion.pieceType motion.pieceColor)
  not_over : client.isGameOver = false
  idle : client.activeMotions = []
  no_premoves : ∀ source, client.premoves source = none
  sameKinds : SameKinds client.board (host.turn ms motion).board

/-- The host's report of the completed move. -/
def completedReport (host : GameEngine) (ms : ℤ) (motion : Motion) : StdString :=
  serializeServerEvent (.completedMove (completedMoveOf (host.turn ms motion).board motion))

theorem MissedStart.missed {host client : GameEngine} {ms : ℤ} {motion : Motion}
    (h : MissedStart host ms motion client) (hlife : host.Lifecycle) :
    Missed client (host.turn ms motion) motion := by
  obtain ⟨past, future, hsplit⟩ := List.append_of_mem h.completing
  have hspec := host.result_spec ms motion
  rw [h.landed] at hspec
  obtain ⟨hvalid, hopen⟩ := hspec
  exact
    { onBoard := hlife.onBoard_turn hsplit
      isMove := (GameEngine.mem_completing.1 h.completing).2.1
      valid := hvalid
      not_friendly := by
        rw [← Bool.not_eq_true, Piece.isFriendly_iff]
        rintro ⟨hfull, hcolor⟩
        rcases hopen with hempty | ⟨henemy, -, -⟩
        · rw [hempty] at hfull
          exact absurd hfull Bool.true_eq_false.mp
        · exact Color.opposite_ne motion.pieceColor (henemy.2.symm.trans hcolor)
      geometry := h.geometry
      not_over := h.not_over
      idle := h.idle
      undisturbed := undisturbed_of_idle h.idle h.no_premoves
      sameKinds := h.sameKinds }

/-- The report of a completed move whose start was missed makes the client catch up if the squares
of the move have names and the client's piece is free to make it, and only then. -/
theorem caughtUp_iff_ready (before : GameEngine) (ops : List Op) (ms : ℕ) (motion : Motion)
    (client : GameEngine) (h : MissedStart (before.reset.run ops) ms motion client) :
    CaughtUp (ClientGameSync.applyMessage
        (completedReport (before.reset.run ops) ms motion) client).2
        ((before.reset.run ops).turn ms motion) motion ↔
      FallbackReady client motion := by
  have hmissed := h.missed (GameEngine.reachable_run before ops).lifecycle
  exact ⟨hmissed.ready, hmissed.caughtUp⟩

/-- A rook with two squares to go to. -/
def rookRowBoard : Board where
  cells := [[.of .rook .white, .empty, .empty]]
  rectangular := by decide

/-- The rook goes one square, rests for a second and goes on. -/
def rookGoesOn : List Op :=
  [.requestMove ⟨0, 0⟩ ⟨0, 1⟩, .advanceTime 1000, .advanceTime 1000, .requestMove ⟨0, 1⟩ ⟨0, 2⟩]

/-- The second move. -/
def secondRookMove : Motion where
  motionId := 1
  source := ⟨0, 1⟩
  destination := ⟨0, 2⟩
  type := .move
  startedAtMs := 2000
  durationMs := 1000
  pieceType := .rook
  pieceColor := .white

theorem rookMove_secondRookMove (board : Board) :
    RookMove board secondRookMove.source secondRookMove.destination := by
  refine ⟨.inl rfl, fun pos hbetween ↦ ?_⟩
  -- No square is strictly between two neighbours.
  obtain ⟨hfrom, hto, hrow, hcol, -⟩ := hbetween
  simp only [secondRookMove, ne_eq, Position.ext_iff] at hfrom hto hrow hcol
  omega

/-- A client that has played the first move and rested has only missed the second one. -/
theorem caughtUp_secondRookMove :
    let host := (GameEngine.reset { board := rookRowBoard }).run rookGoesOn
    let client := (GameEngine.reset { board := rookRowBoard }).run (rookGoesOn.take 3)
    CaughtUp (ClientGameSync.applyMessage (completedReport host (1000 : ℕ) secondRookMove) client).2
      (host.turn (1000 : ℕ) secondRookMove) secondRookMove :=
  (caughtUp_iff_ready { board := rookRowBoard } rookGoesOn 1000 secondRookMove
    ((GameEngine.reset { board := rookRowBoard }).run (rookGoesOn.take 3))
    { completing := by decide
      landed := by decide
      geometry := rookMove_secondRookMove _
      not_over := rfl
      idle := by decide
      no_premoves := fun _ ↦ rfl
      sameKinds := by decide }).2 (by decide)

/-- On a client that lags one second behind, the rook still rests from the first move when the
report of the second one comes, and stays where it is. -/
theorem not_caughtUp_resting :
    let host := (GameEngine.reset { board := rookRowBoard }).run rookGoesOn
    let client := (GameEngine.reset { board := rookRowBoard }).run (rookGoesOn.take 2)
    MissedStart host 1000 secondRookMove client ∧
      ¬ CaughtUp (ClientGameSync.applyMessage (completedReport host 1000 secondRookMove) client).2
        (host.turn 1000 secondRookMove) secondRookMove := by
  intro host client
  have hmissed : MissedStart host 1000 secondRookMove client :=
    { completing := by decide
      landed := by decide
      geometry := rookMove_secondRookMove _
      not_over := rfl
      idle := by decide
      no_premoves := fun _ ↦ rfl
      sameKinds := by decide }
  refine ⟨hmissed, fun hcaught ↦ ?_⟩
  have hlife : host.Lifecycle :=
    (GameEngine.reachable_run { board := rookRowBoard } rookGoesOn).lifecycle
  exact absurd ((hmissed.missed hlife).ready hcaught) (by decide)

end KongFuChess.Network
