import KongFuChess.Library.Reader
import KongFuChess.Network.Retelling

/-!
# The score sheet

The move log keeps texts. On the standard board nothing that matters is lost in them: if the logs of
two games have the same texts, the games have the same scores, and their boards differ at most in
pieces that have been removed as second arrivals, which no text mentions. A line is written in the
call in which its time passes, but the lines of one call stand in the order in which the moves were
started, so the log is in the order of time up to the length of a call.
-/

namespace KongFuChess.Network

open Model Realtime Rules Events Engine

/-! ## Texts -/

theorem blank_notMem_formatElapsedMMSS (timestampMs : ℤ) :
    ' ' ∉ MoveLog.formatElapsedMMSS timestampMs := by
  have hpadded : ∀ value, ' ' ∉ MoveLog.padTwo value := by
    intro value hmem
    rw [MoveLog.padTwo, List.leftpad] at hmem
    rcases List.mem_append.1 hmem with hzero | hdigit
    · exact absurd (List.eq_of_mem_replicate hzero) (by decide)
    · exact Io.notMem_decimal (by decide) (by decide) value hdigit
  intro hmem
  rcases List.mem_append.1 hmem with hminutes | hseconds
  · rcases List.mem_append.1 hminutes with hminutes | hcolon
    · exact hpadded _ hminutes
    · exact absurd (List.mem_singleton.1 hcolon) (by decide)
  · exact hpadded _ hseconds

theorem pieceLabel_inj {type type' : PieceType} {color color' : Color}
    (h : MoveLog.pieceLabel type color = MoveLog.pieceLabel type' color') :
    type = type' ∧ color = color' := by
  simp only [MoveLog.pieceLabel, List.cons.injEq, and_true] at h
  obtain ⟨hcolor, htype⟩ := h
  constructor
  · cases type <;> cases type' <;> first | rfl | exact absurd htype (by decide)
  · cases color <;> cases color' <;> first | rfl | exact absurd hcolor (by decide)

section Squares

variable {pos pos' : Position} (h : Io.OnStandardBoard pos)
include h

/-- A square is named by two characters, of which the first is one of the eight files. -/
theorem exists_name : ∃ file rank, Io.positionToAlgebraic pos = [file, rank] ∧ file ≠ 'j' := by
  refine Io.onStandardBoard_induction (P := fun pos ↦
    ∃ file rank, Io.positionToAlgebraic pos = [file, rank] ∧ file ≠ 'j') (fun row col ↦ ?_) h
  refine ⟨_, _, Io.positionToAlgebraic_of_fin row col, ?_⟩
  revert col
  decide

theorem positionToAlgebraic_inj (h' : Io.OnStandardBoard pos')
    (heq : Io.positionToAlgebraic pos = Io.positionToAlgebraic pos') : pos = pos' := by
  rw [← Io.algebraicToPosition_positionToAlgebraic h, heq,
    Io.algebraicToPosition_positionToAlgebraic h']

theorem length_name : (Io.positionToAlgebraic pos).length = 2 := by
  obtain ⟨file, rank, heq, -⟩ := exists_name h
  rw [heq]
  rfl

/-- A text that begins with the name of a square determines the square. -/
theorem name_append_inj (h' : Io.OnStandardBoard pos') {rest rest' : StdString}
    (heq : Io.positionToAlgebraic pos ++ rest = Io.positionToAlgebraic pos' ++ rest') :
    pos = pos' ∧ rest = rest' := by
  obtain ⟨hname, hrest⟩ := List.append_inj heq ((length_name h).trans (length_name h').symm)
  exact ⟨positionToAlgebraic_inj h h' hname, hrest⟩

end Squares

theorem label_append_inj {type type' : PieceType} {color color' : Color} {rest rest' : StdString}
    (h : MoveLog.pieceLabel type color ++ rest = MoveLog.pieceLabel type' color' ++ rest') :
    type = type' ∧ color = color' ∧ rest = rest' := by
  obtain ⟨hlabel, hrest⟩ := List.append_inj h rfl
  obtain ⟨htype, hcolor⟩ := pieceLabel_inj hlabel
  exact ⟨htype, hcolor, hrest⟩

/-! ## Lines -/

/-- What follows the time in the line of a completed move. -/
def movedText (event : CompletedMoveEvent) : StdString :=
  MoveLog.pieceLabel event.pieceType event.pieceColor ++ ' ' ::
    (Io.positionToAlgebraic event.fromPos ++ '-' :: '>' ::
      (Io.positionToAlgebraic event.toPos ++
        if event.capturedType ≠ .empty then
          " x".toList ++ MoveLog.pieceLabel event.capturedType event.capturedColor
        else []))

/-- What follows the time in the line of a capture by a jumping piece. -/
def jumpedText (event : JumpCaptureEvent) : StdString :=
  MoveLog.pieceLabel event.jumperType event.jumperColor ++ ' ' :: 'j' :: ("ump x ".toList ++
    (MoveLog.pieceLabel event.victimType event.victimColor ++ ' ' ::
      (Io.positionToAlgebraic event.victimFrom ++ '-' :: '>' ::
        (Io.positionToAlgebraic event.victimTo ++ " @".toList ++
          Io.positionToAlgebraic event.jumpSquare))))

theorem completedMoveText_eq (event : CompletedMoveEvent) :
    MoveLog.completedMoveText event =
      MoveLog.formatElapsedMMSS event.timestampMs ++ ' ' :: movedText event := by
  simp [MoveLog.completedMoveText, movedText]

theorem jumpCaptureText_eq (event : JumpCaptureEvent) :
    MoveLog.jumpCaptureText event =
      MoveLog.formatElapsedMMSS event.timestampMs ++ ' ' :: jumpedText event := by
  simp [MoveLog.jumpCaptureText, jumpedText]

/-- The time ends at the first blank. -/
theorem time_append_inj {timestampMs timestampMs' : ℤ} {rest rest' : StdString}
    (h : MoveLog.formatElapsedMMSS timestampMs ++ ' ' :: rest =
      MoveLog.formatElapsedMMSS timestampMs' ++ ' ' :: rest') : rest = rest' := by
  have hread := Reader.read_lines_append (blank_notMem_formatElapsedMMSS timestampMs) rest
  rw [h, Reader.read_lines_append (blank_notMem_formatElapsedMMSS timestampMs')] at hread
  exact (Prod.mk.inj (Option.some.inj hread)).2.symm

/-- The same board follows from both resolutions, and they score the same. -/
def Equivalent (left right : MoveResolution) : Prop :=
  (∀ color, MoveLog.pointsOf color left = MoveLog.pointsOf color right) ∧
    ∀ board, retell board (.ofResolution left) = retell board (.ofResolution right)

theorem equivalent_of_movedText {left right : CompletedMoveEvent}
    (hleft : Nameable (.completedMove left)) (hright : Nameable (.completedMove right))
    (h : movedText left = movedText right) :
    Equivalent (.completedMove left) (.completedMove right) := by
  obtain ⟨-, hfromLeft, htoLeft, -⟩ := hleft
  obtain ⟨-, hfromRight, htoRight, -⟩ := hright
  obtain ⟨htype, hcolor, h⟩ := label_append_inj h
  obtain ⟨hfrom, h⟩ := name_append_inj hfromLeft hfromRight (List.cons.inj h).2
  obtain ⟨hto, h⟩ := name_append_inj htoLeft htoRight (List.cons.inj (List.cons.inj h).2).2
  have hcaptured : left.capturedType = right.capturedType := by
    by_cases hnone : left.capturedType = .empty
    · by_cases hnone' : right.capturedType = .empty
      · rw [hnone, hnone']
      · simp [hnone, hnone'] at h
    · by_cases hnone' : right.capturedType = .empty
      · simp [hnone, hnone'] at h
      · rw [if_pos hnone, if_pos hnone'] at h
        exact (pieceLabel_inj (List.append_cancel_left h)).1
  constructor
  · intro color
    simp only [MoveLog.pointsOf, hcolor, hcaptured]
  · intro board
    change retell board (.completedMove left) = retell board (.completedMove right)
    simp only [retell, arrivedType, htype, hcolor, hfrom, hto]

theorem equivalent_of_jumpedText {left right : JumpCaptureEvent}
    (hleft : Nameable (.jumpCapture left)) (hright : Nameable (.jumpCapture right))
    (h : jumpedText left = jumpedText right) :
    Equivalent (.jumpCapture left) (.jumpCapture right) := by
  obtain ⟨-, -, -, hfromLeft, -⟩ := hleft
  obtain ⟨-, -, -, hfromRight, -⟩ := hright
  obtain ⟨-, hcolor, h⟩ := label_append_inj h
  obtain ⟨hvictim, -, h⟩ :=
    label_append_inj (List.append_cancel_left (List.cons.inj (List.cons.inj h).2).2)
  obtain ⟨hfrom, -⟩ := name_append_inj hfromLeft hfromRight (List.cons.inj h).2
  constructor
  · intro color
    simp only [MoveLog.pointsOf, hcolor, hvictim]
  · intro board
    change retell board (.jumpCapture left) = retell board (.jumpCapture right)
    simp only [retell, hfrom]

/-- The line of a move goes on with a file where the line of a capture goes on with its `j`. -/
theorem movedText_ne_jumpedText {move : CompletedMoveEvent} (hmove : Nameable (.completedMove move))
    (jump : JumpCaptureEvent) : movedText move ≠ jumpedText jump := by
  intro h
  obtain ⟨file, rank, hname, hfile⟩ := exists_name hmove.2.1
  obtain ⟨-, -, h⟩ := label_append_inj h
  rw [hname] at h
  exact hfile (List.cons.inj (List.cons.inj h).2).1

theorem equivalent_of_text {left right : MoveResolution} (hleft : Nameable (.ofResolution left))
    (hright : Nameable (.ofResolution right))
    (h : (MoveLog.entryOf left).text = (MoveLog.entryOf right).text) : Equivalent left right := by
  cases left with
  | completedMove left =>
    cases right with
    | completedMove right =>
      simp only [MoveLog.entryOf, completedMoveText_eq] at h
      exact equivalent_of_movedText hleft hright (time_append_inj h)
    | jumpCapture right =>
      simp only [MoveLog.entryOf, completedMoveText_eq, jumpCaptureText_eq] at h
      exact absurd (time_append_inj h) (movedText_ne_jumpedText hleft right)
  | jumpCapture left =>
    cases right with
    | completedMove right =>
      simp only [MoveLog.entryOf, completedMoveText_eq, jumpCaptureText_eq] at h
      exact absurd (time_append_inj h).symm (movedText_ne_jumpedText hright left)
    | jumpCapture right =>
      simp only [MoveLog.entryOf, jumpCaptureText_eq] at h
      exact equivalent_of_jumpedText hleft hright (time_append_inj h)

/-! ## The log of a run -/

/-- What an operation adds to the log. -/
def resolvedIn (engine : GameEngine) : Op → List MoveResolution
  | .advanceTime ms => (engine.arrivalTick ms).resolutions
  | _ => []

theorem moveLog_eq_foldl (engine : GameEngine) (op : Op) :
    (engine.step op).moveLog = (resolvedIn engine op).foldl MoveLog.record engine.moveLog := by
  by_cases hop : ∃ ms, op = .advanceTime ms
  · obtain ⟨ms, rfl⟩ := hop
    rw [GameEngine.step_advanceTime, GameEngine.moveLog_advanceTime,
      GameEngine.moveLog_afterArrivals]
    rfl
  · have hother : ∀ ms, op ≠ .advanceTime ms := fun ms heq ↦ hop ⟨ms, heq⟩
    rw [engine.moveLog_step hother]
    cases op with
    | advanceTime ms => exact absurd rfl (hother ms)
    | _ => rfl

theorem moveLog_run (engine : GameEngine) (ops : List Op) :
    (engine.run ops).moveLog =
      (Transition.emissions GameEngine.step resolvedIn engine ops).foldl MoveLog.record
        engine.moveLog := by
  induction ops generalizing engine with
  | nil => rfl
  | cons op ops ih =>
    calc
      ((engine.step op).run ops).moveLog =
          (Transition.emissions GameEngine.step resolvedIn (engine.step op) ops).foldl
            MoveLog.record (engine.step op).moveLog := ih _
      _ = _ := by rw [moveLog_eq_foldl, Transition.emissions_cons, List.foldl_append]

/-- The squares from which an operation removes pieces without a word. -/
def lostIn (engine : GameEngine) (op : Op) : List Position :=
  (lostPiecesIn engine op).map fun lost ↦ lost.1

theorem mem_lostIn {engine : GameEngine} {ops : List Op} {lost : LostPiece}
    (h : lost ∈ Transition.emissions GameEngine.step lostPiecesIn engine ops) :
    lost.1 ∈ Transition.emissions GameEngine.step lostIn engine ops := by
  have hmap := Transition.emissions_map GameEngine.step lostPiecesIn (fun lost ↦ lost.1) engine ops
  exact hmap ▸ List.mem_map_of_mem h

section Runs

variable {engine : GameEngine}

/-- Along a run the resolutions have names, and they tell how the board changes. -/
theorem retold_step {lost : List LostPiece} {told : Board} (h : Retold lost told engine.board)
    (hlife : engine.Lifecycle) (op : Op) :
    Retold (lost ++ lostPiecesIn engine op)
      (((resolvedIn engine op).map GameEvent.ofResolution).foldl retell told)
      (engine.step op).board := by
  by_cases hop : ∃ ms, op = .advanceTime ms
  · obtain ⟨ms, rfl⟩ := hop
    exact (h.arrivalTick hlife ms).congr (GameEngine.sameKinds_advanceTime engine ms)
  · have hother : ∀ ms, op ≠ .advanceTime ms := fun ms heq ↦ hop ⟨ms, heq⟩
    rw [engine.board_step hother]
    cases op with
    | advanceTime ms => exact absurd rfl (hother ms)
    | _ => exact h.mono []

theorem retold_resolutions {lost : List LostPiece} {told : Board}
    (h : Retold lost told engine.board) (hlife : engine.Lifecycle) (ops : List Op) :
    Retold (lost ++ Transition.emissions GameEngine.step lostPiecesIn engine ops)
      (((Transition.emissions GameEngine.step resolvedIn engine ops).map
        GameEvent.ofResolution).foldl retell told)
      (engine.run ops).board := by
  induction ops generalizing engine lost told with
  | nil => exact h.mono []
  | cons op ops ih =>
    have htail := ih (retold_step h hlife op) (hlife.step op)
    rw [Transition.emissions_cons, Transition.emissions_cons, List.map_append, List.foldl_append,
      ← List.append_assoc]
    exact htail

theorem nameable_resolutions
    (hstandard : ∀ pos, engine.board.inBounds pos = true ↔ Io.OnStandardBoard pos)
    (hlife : engine.Lifecycle) (ops : List Op) :
    ∀ resolution ∈ Transition.emissions GameEngine.step resolvedIn engine ops,
      Nameable (.ofResolution resolution) := by
  induction ops generalizing engine with
  | nil => exact fun _ hmem ↦ absurd hmem List.not_mem_nil
  | cons op ops ih =>
    intro resolution hmem
    rcases List.mem_append.1 hmem with hhead | htail
    · cases op with
      | advanceTime ms => exact nameable_of_mem_resolutions hlife hstandard hhead
      | _ => exact absurd hhead List.not_mem_nil
    · apply ih _ (hlife.step op) resolution htail
      intro pos
      rw [inBounds_step hlife, hstandard]

end Runs

/-- Texts that agree line by line lead to the same scores and to the same board. -/
theorem foldl_of_texts {left right : List MoveResolution}
    (hleft : ∀ resolution ∈ left, Nameable (.ofResolution resolution))
    (hright : ∀ resolution ∈ right, Nameable (.ofResolution resolution))
    (h : (left.map fun resolution ↦ (MoveLog.entryOf resolution).text) =
      right.map fun resolution ↦ (MoveLog.entryOf resolution).text) :
    (∀ color, left.map (MoveLog.pointsOf color) = right.map (MoveLog.pointsOf color)) ∧
      ∀ board, (left.map GameEvent.ofResolution).foldl retell board =
        (right.map GameEvent.ofResolution).foldl retell board := by
  induction left generalizing right with
  | nil =>
    obtain rfl := List.map_eq_nil_iff.1 h.symm
    exact ⟨fun _ ↦ rfl, fun _ ↦ rfl⟩
  | cons first left ih =>
    cases right with
    | nil => exact absurd h (List.cons_ne_nil _ _)
    | cons other right =>
      obtain ⟨htext, hrest⟩ := List.cons.inj h
      obtain ⟨hpoints, hboard⟩ := equivalent_of_text (hleft first List.mem_cons_self)
        (hright other List.mem_cons_self) htext
      obtain ⟨hscores, hboards⟩ :=
        ih (fun resolution hmem ↦ hleft resolution (List.mem_cons_of_mem _ hmem))
          (fun resolution hmem ↦ hright resolution (List.mem_cons_of_mem _ hmem)) hrest
      constructor
      · intro color
        rw [List.map_cons, List.map_cons, hpoints color, hscores color]
      · intro board
        simp only [List.map_cons, List.foldl_cons, hboard, hboards]

/-- The texts of the log are a record of the game. Two games from one board whose logs have the same
texts, however long they took and whatever else was tried in them, have the same scores, and every
square has the same piece in both unless a second arrival was removed from it. -/
theorem recorded_run (before : GameEngine)
    (hstandard : ∀ pos, before.board.inBounds pos = true ↔ Io.OnStandardBoard pos)
    (ops ops' : List Op)
    (htexts : ((before.reset.run ops).moveLog.entries.map fun entry ↦ entry.text) =
      (before.reset.run ops').moveLog.entries.map fun entry ↦ entry.text) :
    (∀ color, (before.reset.run ops).moveLog.score color =
      (before.reset.run ops').moveLog.score color) ∧
    ∀ pos,
      ((before.reset.run ops).board.cell pos).kind =
          ((before.reset.run ops').board.cell pos).kind ∨
        pos ∈ Transition.emissions GameEngine.step lostIn before.reset ops ∨
        pos ∈ Transition.emissions GameEngine.step lostIn before.reset ops' := by
  have hlife := GameEngine.lifecycle_reset before
  have hentries : ∀ ops, ((before.reset.run ops).moveLog.entries.map fun entry ↦ entry.text) =
      (Transition.emissions GameEngine.step resolvedIn before.reset ops).map
        fun resolution ↦ (MoveLog.entryOf resolution).text := by
    intro ops
    rw [moveLog_run, MoveLog.entries_foldl_record, List.map_append, List.map_map]
    rfl
  have hnameable := @nameable_resolutions before.reset hstandard hlife
  have hretold := @retold_resolutions before.reset [] before.board (.refl _) hlife
  rw [hentries, hentries] at htexts
  obtain ⟨hpoints, hboards⟩ := foldl_of_texts (hnameable ops) (hnameable ops') htexts
  constructor
  · intro color
    rw [moveLog_run, moveLog_run, MoveLog.score_foldl_record, MoveLog.score_foldl_record,
      hpoints color]
  · intro pos
    have htold := (hretold ops).cells pos
    have htold' := (hretold ops').cells pos
    rw [hboards] at htold
    rcases htold with hkind | ⟨-, hlost⟩
    · rcases htold' with hkind' | ⟨-, hlost'⟩
      · exact .inl (hkind.symm.trans hkind')
      · exact .inr (.inr (mem_lostIn hlost'))
    · exact .inr (.inl (mem_lostIn hlost))

/-- The same double step in one frame and in two, with a request that is refused. -/
theorem recorded_run_opening :
    let before : GameEngine := { board := Io.setupStandardBoard }
    let ops := [Op.requestMove ⟨6, 4⟩ ⟨4, 4⟩, .advanceTime 2000]
    let ops' := [Op.requestMove ⟨6, 4⟩ ⟨4, 4⟩, .requestMove ⟨7, 0⟩ ⟨5, 0⟩, .advanceTime 1500,
      .advanceTime 1000]
    (∀ color, (before.reset.run ops).moveLog.score color =
      (before.reset.run ops').moveLog.score color) ∧
    ∀ pos,
      ((before.reset.run ops).board.cell pos).kind =
          ((before.reset.run ops').board.cell pos).kind ∨
        pos ∈ Transition.emissions GameEngine.step lostIn before.reset ops ∨
        pos ∈ Transition.emissions GameEngine.step lostIn before.reset ops' :=
  recorded_run { board := Io.setupStandardBoard } (fun pos ↦ Io.inBounds_setupStandardBoard pos)
    _ _ (by decide)

/-! ## Times -/

theorem timestampMs_of_mem_emitted {tick : Tick} {motion : Motion} {result : Outcome}
    {resolution : MoveResolution} (h : resolution ∈ emitted tick motion result) :
    (MoveLog.entryOf resolution).timestampMs = motionArrivalMs motion := by
  cases result with
  | stale | blocked | lostTie => exact absurd h List.not_mem_nil
  | jumpCaptured | landed =>
    rw [List.mem_singleton.1 h]
    rfl

/-- The moves that a call resolves have arrived after the last call and not after this one. -/
theorem timestampMs_resolvedIn {engine : GameEngine} (hlife : engine.Lifecycle) {ms : ℕ}
    {resolution : MoveResolution} (h : resolution ∈ resolvedIn engine (.advanceTime ms)) :
    engine.elapsedMs < (MoveLog.entryOf resolution).timestampMs ∧
      (MoveLog.entryOf resolution).timestampMs ≤ engine.elapsedMs + ms := by
  rw [resolvedIn, hlife.resolutions_eq, List.mem_flatMap] at h
  obtain ⟨motion, hmotion, hemitted⟩ := h
  obtain ⟨hactive, -, hexpired⟩ := GameEngine.mem_completing.1 hmotion
  have hrunning := hlife.unexpired motion hactive
  rw [GameEngine.isExpired_eq_false_iff] at hrunning
  rw [timestampMs_of_mem_emitted hemitted]
  exact ⟨hrunning, of_decide_eq_true hexpired⟩

/-- The log is in the order of time up to `delay`, and it is not ahead of the clock. -/
structure Dated (delay : ℕ) (engine : GameEngine) : Prop where
  lifecycle : engine.Lifecycle
  ordered : engine.moveLog.entries.Pairwise fun earlier later ↦
    earlier.timestampMs < later.timestampMs + (delay : ℤ)
  past : ∀ entry ∈ engine.moveLog.entries, entry.timestampMs ≤ engine.elapsedMs

theorem entries_eq_append (engine : GameEngine) (op : Op) :
    (engine.step op).moveLog.entries =
      engine.moveLog.entries ++ (resolvedIn engine op).map MoveLog.entryOf := by
  rw [moveLog_eq_foldl, MoveLog.entries_foldl_record]

theorem Dated.step {delay : ℕ} {engine : GameEngine} (h : Dated delay engine) {op : Op}
    (hshort : ∀ ms, op = .advanceTime ms → ms ≤ delay) : Dated delay (engine.step op) := by
  refine ⟨h.lifecycle.step op, ?_, ?_⟩
  · rw [entries_eq_append, List.pairwise_append]
    have hwindow : ∀ entry ∈ (resolvedIn engine op).map MoveLog.entryOf,
        engine.elapsedMs < entry.timestampMs ∧ entry.timestampMs ≤ engine.elapsedMs + delay := by
      intro entry hmem
      obtain ⟨resolution, hresolution, rfl⟩ := List.mem_map.1 hmem
      cases op with
      | advanceTime ms =>
        have hms := hshort ms rfl
        obtain ⟨hafter, hbefore⟩ := timestampMs_resolvedIn h.lifecycle hresolution
        exact ⟨hafter, by omega⟩
      | _ => exact absurd hresolution List.not_mem_nil
    refine ⟨h.ordered, ?_, ?_⟩
    · rw [List.pairwise_iff_forall_sublist]
      intro earlier later hsublist
      have hearlier := hwindow earlier (hsublist.subset (by simp))
      have hlater := hwindow later (hsublist.subset (by simp))
      omega
    · intro earlier hearlier later hlater
      have hpast := h.past earlier hearlier
      have hafter := (hwindow later hlater).1
      omega
  · intro entry hmem
    rw [entries_eq_append] at hmem
    rcases List.mem_append.1 hmem with hold | hnew
    · exact (h.past entry hold).trans (engine.elapsedMs_step op)
    · obtain ⟨resolution, hresolution, rfl⟩ := List.mem_map.1 hnew
      cases op with
      | advanceTime ms =>
        rw [GameEngine.step_advanceTime, GameEngine.elapsedMs_advanceTime]
        exact (timestampMs_resolvedIn h.lifecycle hresolution).2
      | _ => exact absurd hresolution List.not_mem_nil

/-- Every line is written in the call in which its time passes. If no call is longer than `delay`,
a line stands before another one only if its time is less than `delay` after that of the other. -/
theorem chronological_run (before : GameEngine) (ops : List Op) (delay : ℕ)
    (hshort : ∀ ms, .advanceTime ms ∈ ops → ms ≤ delay) :
    ((before.reset.run ops).moveLog.entries.Pairwise fun earlier later ↦
      earlier.timestampMs < later.timestampMs + (delay : ℤ)) ∧
    ∀ op, ∃ added, ((before.reset.run ops).step op).moveLog.entries =
        (before.reset.run ops).moveLog.entries ++ added ∧
      ∀ entry ∈ added, (before.reset.run ops).elapsedMs < entry.timestampMs ∧
        entry.timestampMs ≤ ((before.reset.run ops).step op).elapsedMs := by
  have hreset : Dated delay before.reset :=
    ⟨GameEngine.lifecycle_reset before, .nil, fun _ hmem ↦ absurd hmem List.not_mem_nil⟩
  have hdated : Dated delay (before.reset.run ops) := by
    have hall : ops = ops ++ [] := (List.append_nil ops).symm
    refine Transition.run_induction (P := fun _ engine ↦ Dated delay engine) hreset ?_ hall
    intro past op future hsplit hpast
    apply hpast.step
    rintro ms rfl
    exact hshort ms (by simp [hsplit])
  refine ⟨hdated.ordered, fun op ↦ ⟨_, entries_eq_append _ op, ?_⟩⟩
  intro entry hmem
  obtain ⟨resolution, hresolution, rfl⟩ := List.mem_map.1 hmem
  cases op with
  | advanceTime ms =>
    rw [GameEngine.step_advanceTime, GameEngine.elapsedMs_advanceTime]
    exact timestampMs_resolvedIn hdated.lifecycle hresolution
  | _ => exact absurd hresolution List.not_mem_nil

/-- Two pawns arrive in one long call, and the one that was started first arrives last. -/
theorem chronological_run_twoPawns :
    let before : GameEngine := { board := Io.setupStandardBoard }
    let ops := [Op.requestMove ⟨6, 4⟩ ⟨4, 4⟩, .advanceTime 500, .requestMove ⟨6, 3⟩ ⟨5, 3⟩,
      .advanceTime 3000]
    ((before.reset.run ops).moveLog.entries.map fun entry ↦ entry.timestampMs) = [2000, 1500] ∧
    ((before.reset.run ops).moveLog.entries.Pairwise fun earlier later ↦
      earlier.timestampMs < later.timestampMs + ((3000 : ℕ) : ℤ)) ∧
    ∀ op, ∃ added, ((before.reset.run ops).step op).moveLog.entries =
        (before.reset.run ops).moveLog.entries ++ added ∧
      ∀ entry ∈ added, (before.reset.run ops).elapsedMs < entry.timestampMs ∧
        entry.timestampMs ≤ ((before.reset.run ops).step op).elapsedMs :=
  ⟨by decide, chronological_run { board := Io.setupStandardBoard } _ 3000 (by simp)⟩

end KongFuChess.Network
