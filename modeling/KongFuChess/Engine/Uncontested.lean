import KongFuChess.Engine.Delay
import KongFuChess.Engine.Independence
import Mathlib.Data.List.Pairwise

/-!
# Motions that nothing contests

A move in flight is uncontested if no other motion in flight shares a square with it. It then
lands as it was started, whenever its time comes and in whatever order with the others: what the
board will show once everything has landed is settled when the motions are started, and passing
time does not change it.
-/

namespace KongFuChess.Engine

open Model Realtime Rules Events

/-- What a board shows. -/
abbrev Kinds := Position → PieceType × Color

def kinds (board : Board) : Kinds := fun pos ↦ (board.cell pos).kind

/-- The piece as it stands on its destination, on a board with the given number of rows. -/
def arrivedKind (rows : ℕ) (destination : Position) (kind : PieceType × Color) :
    PieceType × Color :=
  if kind.1 = .pawn ∧ destination.row = (if kind.2 = .white then 0 else (rows : ℤ) - 1) then
    (.queen, kind.2)
  else kind

/-- What the board shows after an undisturbed move. -/
def relocate (rows : ℕ) (shown : Kinds) (fromPos toPos : Position) : Kinds := fun pos ↦
  if pos = toPos then arrivedKind rows toPos (shown fromPos)
  else if pos = fromPos then Piece.empty.kind
  else shown pos

/-- What the board shows after a motion that nothing contests. -/
def conclude (rows : ℕ) (shown : Kinds) (motion : Motion) : Kinds :=
  match motion.type with
  | .move => relocate rows shown motion.source motion.destination
  | .jump => shown

/-- The motions do not contest each other; two jumps never do. -/
def Clear (first second : Motion) : Prop :=
  Apart first second ∨ first.type = .jump ∧ second.type = .jump

instance (first second : Motion) : Decidable (Clear first second) :=
  inferInstanceAs (Decidable (_ ∨ _))

theorem Clear.symm {first second : Motion} (h : Clear first second) : Clear second first :=
  h.imp Apart.symm And.symm

theorem Clear.apart {first second : Motion} (h : Clear first second) (htype : second.type = .move) :
    Apart first second :=
  h.resolve_right fun hjumps ↦ by simp [htype] at hjumps

theorem conclude_of_notMem (rows : ℕ) (shown : Kinds) {motion : Motion} {pos : Position}
    (h : motion.type = .move → pos ∉ squares motion) :
    conclude rows shown motion pos = shown pos := by
  cases htype : motion.type with
  | jump => simp [conclude, htype]
  | move =>
    have hnot := h htype
    simp only [squares, List.mem_cons, List.not_mem_nil, or_false, not_or] at hnot
    simp [conclude, htype, relocate, hnot]

theorem run_conclude_of_notMem (rows : ℕ) (shown : Kinds) {motions : List Motion} {pos : Position}
    (h : ∀ motion ∈ motions, motion.type = .move → pos ∉ squares motion) :
    Transition.run (conclude rows) shown motions pos = shown pos := by
  induction motions generalizing shown with
  | nil => rfl
  | cons motion rest ih =>
    rw [Transition.run_cons, ih _ fun other hother ↦ h other (List.mem_cons_of_mem _ hother)]
    exact conclude_of_notMem rows shown (h motion (List.mem_cons_self ..))

/-- Jumps leave the pieces where they are. -/
theorem run_conclude_moves (rows : ℕ) (shown : Kinds) (motions : List Motion) :
    Transition.run (conclude rows) shown (motions.filter (·.type = .move)) =
      Transition.run (conclude rows) shown motions := by
  induction motions generalizing shown with
  | nil => rfl
  | cons motion rest ih =>
    cases htype : motion.type with
    | move => simpa [htype] using ih _
    | jump =>
      have hsame : conclude rows shown motion = shown := by simp [conclude, htype]
      simpa [htype, hsame] using ih shown

/-- Undisturbed moves can be exchanged. -/
theorem conclude_comm (rows : ℕ) {first second : Motion} (h : Clear first second) (shown : Kinds) :
    conclude rows (conclude rows shown first) second =
      conclude rows (conclude rows shown second) first := by
  cases hfirst : first.type with
  | jump => simp [conclude, hfirst]
  | move =>
    cases hsecond : second.type with
    | jump => simp [conclude, hsecond]
    | move =>
      have hapart := h.apart hsecond
      have hsource := hapart first.source (by simp [squares])
      have hdestination := hapart first.destination (by simp [squares])
      simp only [squares, List.mem_cons, List.not_mem_nil, or_false, not_or] at hsource hdestination
      funext pos
      simp only [conclude, hfirst, hsecond, relocate]
      grind

namespace GameEngine

/-- No two motions in flight contest each other, and every move in flight moves a piece that is
still there to a square that is still open to it. -/
structure Uncontested (engine : GameEngine) : Prop where
  clear : engine.activeMotions.Pairwise Clear
  valid : ∀ motion ∈ engine.activeMotions, motion.type = .move → motion.Valid engine.board
  unblocked : ∀ motion ∈ engine.activeMotions, motion.type = .move →
    (engine.board.cell motion.destination).isFriendly motion.pieceColor = false

/-- What the board will show once all motions in flight have landed. -/
def destined (engine : GameEngine) : Kinds :=
  Transition.run (conclude engine.board.rows) (kinds engine.board) engine.activeMotions

section Arrivals

variable {engine : GameEngine} {ms : ℤ}

theorem Uncontested.clear_of_ne (h : engine.Uncontested) {first second : Motion}
    (hfirst : first ∈ engine.activeMotions) (hsecond : second ∈ engine.activeMotions)
    (hne : first ≠ second) : Clear first second := by
  have : Std.Symm Clear := ⟨fun _ _ ↦ Clear.symm⟩
  exact h.clear.forall hfirst hsecond hne

/-- The arrival of an uncontested move finds its squares as the call has found them, and lands. -/
theorem Uncontested.result_eq (h : engine.Uncontested) (hlife : engine.Lifecycle)
    {past future : List Motion} {motion : Motion}
    (hsplit : engine.completing ms = past ++ motion :: future)
    (hshown : kinds (engine.turn ms motion).board =
      Transition.run (conclude engine.board.rows) (kinds engine.board) past)
    (harrived : ∀ pos ∈ (engine.turn ms motion).arrivedThisTick,
      ∃ mover ∈ past, mover.destination = pos) : engine.result ms motion = .landed := by
  have hmem : motion ∈ engine.completing ms := by simp [hsplit]
  obtain ⟨hactive, htype, -⟩ := mem_completing.1 hmem
  have hpast : ∀ other ∈ past, Apart other motion := by
    intro other hother
    have hother' : other ∈ engine.completing ms := mem_completing_of_past hsplit hother
    refine (h.clear_of_ne (mem_completing.1 hother').1 hactive ?_).apart htype
    rintro rfl
    exact hlife.notMem_past hsplit hother
  have hkind : ∀ pos ∈ squares motion,
      ((engine.turn ms motion).board.cell pos).kind = (engine.board.cell pos).kind := by
    intro pos hpos
    have hsame := congrFun hshown pos
    rwa [run_conclude_of_notMem _ _ fun other hother _ hmem ↦ hpast other hother pos hmem hpos]
      at hsame
  have hsource := hkind motion.source (by simp [squares])
  have hdestination := hkind motion.destination (by simp [squares])
  apply landed_of_unopposed
  · exact (h.valid motion hactive htype).of_kind_eq hsource
  · rw [Piece.isFriendly_congr hdestination]
    exact h.unblocked motion hactive htype
  · rw [← Bool.not_eq_true]
    intro hairborne
    obtain ⟨jump, hjump, heq⟩ := List.any_eq_true.1 hairborne
    simp only [Bool.and_eq_true, decide_eq_true_eq] at heq
    have hne : jump ≠ motion := by
      rintro rfl
      simp [htype] at heq
    have hapart := (h.clear_of_ne hjump hactive hne).apart htype
    exact absurd (by simp [squares]) (hapart motion.destination (by simp [squares, heq.2]))
  · intro hmem
    obtain ⟨mover, hmover, heq⟩ := harrived _ hmem
    exact absurd (by simp [squares])
      (hpast mover hmover motion.destination (by simp [squares, heq]))

theorem kind_landedPiece (board : Board) (motion : Motion) :
    (landedPiece board motion).kind =
      arrivedKind board.rows motion.destination (board.cell motion.source).kind := by
  have hrow : arrivedKind board.rows motion.destination (board.cell motion.source).kind =
      if (board.cell motion.source).type = .pawn ∧
          motion.destination.row = lastRow board (board.cell motion.source).color then
        (.queen, (board.cell motion.source).color)
      else (board.cell motion.source).kind := rfl
  rw [hrow, Piece.kind, landedPiece_type, landedPiece_color]
  split <;> rfl

theorem kinds_settle_landed {tick : Tick} {motion : Motion} (hon : motion.OnBoard tick.board)
    (htype : motion.type = .move) :
    kinds (tick.settle motion .landed).board =
      conclude tick.board.rows (kinds tick.board) motion := by
  funext pos
  simp only [kinds, cell_settle hon, conclude, htype, relocate, ← kind_landedPiece]
  split
  · rfl
  · split <;> rfl

/-- All moves that complete in a call land. -/
theorem Uncontested.kinds_arrivalTick (h : engine.Uncontested) (hlife : engine.Lifecycle) (ms : ℤ) :
    kinds (engine.arrivalTick ms).board =
      Transition.run (conclude engine.board.rows) (kinds engine.board) (engine.completing ms) := by
  refine (hlife.turns ms (I := fun past tick ↦
    kinds tick.board = Transition.run (conclude engine.board.rows) (kinds engine.board) past ∧
      (∀ pos ∈ tick.arrivedThisTick, ∃ mover ∈ past, mover.destination = pos) ∧
        tick.board.rows = engine.board.rows) ⟨?_, ?_, ?_⟩ ?_).2.1
  · exact funext (engine.sameKinds_arrivalStart ms).kind
  · exact fun _ hmem ↦ absurd hmem List.not_mem_nil
  · exact (engine.sameKinds_arrivalStart ms).rows
  · rintro past motion future hsplit hon ⟨hshown, harrived, hrows⟩
    have hmem : motion ∈ engine.completing ms := by simp [hsplit]
    rw [h.result_eq hlife hsplit hshown harrived]
    refine ⟨?_, fun pos hpos ↦ ?_, ?_⟩
    · rw [kinds_settle_landed hon (mem_completing.1 hmem).2.1, hshown, hrows, Transition.run_append]
      rfl
    · rcases mem_arrived_settle.1 hpos with hold | ⟨-, rfl⟩
      · obtain ⟨mover, hmover, heq⟩ := harrived pos hold
        exact ⟨mover, List.mem_append_left _ hmover, heq⟩
      · exact ⟨motion, by simp, rfl⟩
    · rw [rows_settle, hrows]

theorem Lifecycle.rows_advanceTime (hlife : engine.Lifecycle) (ms : ℤ) :
    (engine.advanceTime ms).board.rows = engine.board.rows :=
  calc
    _ = (engine.arrivalTick ms).board.rows := (sameKinds_advanceTime engine ms).rows
    _ = engine.board.rows := (hlife.frame_arrivalTick ms).rows

theorem Uncontested.kinds_advanceTime (h : engine.Uncontested) (hlife : engine.Lifecycle) (ms : ℤ) :
    kinds (engine.advanceTime ms).board =
      Transition.run (conclude engine.board.rows) (kinds engine.board) (engine.completing ms) :=
  calc
    _ = kinds (engine.arrivalTick ms).board := funext (sameKinds_advanceTime engine ms).kind
    _ = _ := h.kinds_arrivalTick hlife ms

/-- The squares of a motion that goes on are left alone. -/
theorem Uncontested.kind_of_remaining (h : engine.Uncontested) (hlife : engine.Lifecycle)
    {motion : Motion} (hmem : motion ∈ engine.activeMotions) (htype : motion.type = .move)
    (hremaining : motion.isExpired (engine.elapsedMs + ms) = false) {pos : Position}
    (hpos : pos ∈ squares motion) :
    ((engine.advanceTime ms).board.cell pos).kind = (engine.board.cell pos).kind := by
  have hsame := congrFun (h.kinds_advanceTime hlife ms) pos
  rwa [run_conclude_of_notMem _ _ ?_] at hsame
  intro other hother _ hother'
  obtain ⟨hactive, -, hexpired⟩ := mem_completing.1 hother
  refine (h.clear_of_ne hactive hmem ?_).apart htype pos hother' hpos
  rintro rfl
  simp [hexpired] at hremaining

theorem Uncontested.advanceTime (h : engine.Uncontested) (hlife : engine.Lifecycle)
    (hpremoves : ∀ source, engine.premoves source = none) (ms : ℤ) :
    (engine.advanceTime ms).Uncontested := by
  have hmem : ∀ motion ∈ (engine.advanceTime ms).activeMotions, motion ∈ engine.activeMotions ∧
      motion.isExpired (engine.elapsedMs + ms) = false := by
    intro motion hmotion
    rw [activeMotions_advanceTime_of_none hpremoves, List.mem_filter] at hmotion
    exact ⟨hmotion.1, by simpa using hmotion.2⟩
  constructor
  · rw [activeMotions_advanceTime_of_none hpremoves]
    exact h.clear.sublist List.filter_sublist
  · intro motion hmotion htype
    obtain ⟨hactive, hremaining⟩ := hmem motion hmotion
    exact (h.valid motion hactive htype).of_kind_eq
      (h.kind_of_remaining hlife hactive htype hremaining (by simp [squares]))
  · intro motion hmotion htype
    obtain ⟨hactive, hremaining⟩ := hmem motion hmotion
    rw [Piece.isFriendly_congr
      (h.kind_of_remaining hlife hactive htype hremaining (by simp [squares]))]
    exact h.unblocked motion hactive htype

/-- Passing time does not change what the board will show. -/
theorem Uncontested.destined_advanceTime (h : engine.Uncontested) (hlife : engine.Lifecycle)
    (hpremoves : ∀ source, engine.premoves source = none) (ms : ℤ) :
    (engine.advanceTime ms).destined = engine.destined := by
  -- the motions that expire can be concluded first
  have hpartition : engine.destined =
      Transition.run (conclude engine.board.rows)
        (Transition.run (conclude engine.board.rows) (kinds engine.board)
          (engine.activeMotions.filter (·.isExpired (engine.elapsedMs + ms))))
        (engine.activeMotions.filter fun motion ↦ !motion.isExpired (engine.elapsedMs + ms)) :=
    Transition.run_partition eq_equivalence (fun _ _ _ heq ↦ heq ▸ rfl) _
      (h.clear.imp fun {_ _} hclear _ _ shown ↦ conclude_comm _ hclear shown) _
  have hexpired : (engine.activeMotions.filter (·.isExpired (engine.elapsedMs + ms))).filter
      (·.type = .move) = engine.completing ms := List.filter_filter
  rw [destined, hlife.rows_advanceTime, h.kinds_advanceTime hlife,
    activeMotions_advanceTime_of_none hpremoves, hpartition, ← hexpired, run_conclude_moves]

end Arrivals

/-! ## Starting motions -/

/-- The motion that the request starts contests no motion in flight. -/
def Free (engine : GameEngine) : Op → Prop
  | .requestMove fromPos toPos =>
    ∀ motion ∈ engine.activeMotions, Clear motion (engine.newMove fromPos toPos)
  | .requestJump pos => ∀ motion ∈ engine.activeMotions, Clear motion (engine.newJump pos)
  | _ => True

instance (engine : GameEngine) (op : Op) : Decidable (engine.Free op) :=
  match op with
  | .requestMove fromPos toPos => inferInstanceAs (Decidable (∀ motion ∈ engine.activeMotions,
      Clear motion (engine.newMove fromPos toPos)))
  | .requestJump pos => inferInstanceAs (Decidable (∀ motion ∈ engine.activeMotions,
      Clear motion (engine.newJump pos)))
  | .queuePremove .. | .advanceTime _ | .remoteGameEnded _ => .isTrue trivial

/-- What the board will show after a request that has been accepted. -/
def concludeRequest (rows : ℕ) (shown : Kinds) : Op → Kinds
  | .requestMove fromPos toPos => relocate rows shown fromPos toPos
  | _ => shown

theorem uncontested_reset (engine : GameEngine) : engine.reset.Uncontested where
  clear := .nil
  valid := fun _ hmem ↦ absurd hmem List.not_mem_nil
  unblocked := fun _ hmem ↦ absurd hmem List.not_mem_nil

theorem Uncontested.start {engine : GameEngine} (h : engine.Uncontested) {motion : Motion}
    (hclear : ∀ other ∈ engine.activeMotions, Clear other motion)
    (hvalid : motion.type = .move → motion.Valid engine.board)
    (hunblocked : motion.type = .move →
      (engine.board.cell motion.destination).isFriendly motion.pieceColor = false)
    (event : GameEvent) :
    (engine.start motion event).Uncontested ∧
      (engine.start motion event).destined = conclude engine.board.rows engine.destined motion := by
  refine ⟨⟨?_, ?_, ?_⟩, ?_⟩
  · rw [activeMotions_start, List.pairwise_append]
    refine ⟨h.clear, List.pairwise_singleton _ _, fun other hother last hlast ↦ ?_⟩
    obtain rfl := List.mem_singleton.1 hlast
    exact hclear other hother
  · exact forall_mem_start h.valid hvalid
  · exact forall_mem_start h.unblocked hunblocked
  · rw [destined, activeMotions_start, board_start, Transition.run_append]
    rfl

/-- An accepted request that contests nothing adds its move to what the board will show. -/
theorem Uncontested.accept {engine : GameEngine} (h : engine.Uncontested) {op : Op}
    (haccepted : engine.answer op = some true) (hfree : engine.Free op) :
    (engine.step op).Uncontested ∧
      (engine.step op).destined = concludeRequest engine.board.rows engine.destined op := by
  cases op with
  | requestMove fromPos toPos =>
    rcases engine.requestMove_cases fromPos toPos with heq | ⟨hguards, heq⟩
    · simp [answer, perform, heq] at haccepted
    have hvalidated := validated_of_validateMove hguards.valid
    rw [step_requestMove, heq]
    exact h.start hfree (fun _ ↦ ⟨hvalidated.occupied, rfl, rfl⟩)
      (fun _ ↦ hvalidated.not_friendly) _
  | requestJump pos =>
    rcases engine.requestJump_cases pos with heq | ⟨hguards, heq⟩
    · simp [answer, perform, heq] at haccepted
    rw [step_requestJump, heq]
    exact h.start hfree (fun htype ↦ absurd htype MotionType.noConfusion)
      (fun htype ↦ absurd htype MotionType.noConfusion) _
  | queuePremove | advanceTime | remoteGameEnded => simp [answer, perform] at haccepted

/-- Once nothing is in flight, the board shows what it was to show. -/
theorem destined_of_activeMotions {engine : GameEngine} (h : engine.activeMotions = []) :
    engine.destined = kinds engine.board := by
  rw [destined, h]
  rfl

end GameEngine

end KongFuChess.Engine
