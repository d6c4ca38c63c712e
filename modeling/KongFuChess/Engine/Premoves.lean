import KongFuChess.Engine.Landings

/-!
# Whose premove is executed

A premove is stored under the source of a running move and waits for its completion. After the
arrivals the engine concludes from two cells that the move has landed: its source is empty and its
destination is not. A move that loses a tie or is captured in the air leaves the same two cells
behind, and then the premove is looked up for the piece that defeated its mover. It is started
whenever that piece is free and could make the same move.
-/

namespace KongFuChess.Engine

open Model Realtime Rules Events

namespace GameEngine

/-! ## One premove -/

/-- The premove of a completed move is accepted in the given state. -/
structure Executable (engine : GameEngine) (motion : Motion) (premove : Premove) : Prop where
  vacated : (engine.board.cell motion.source).isEmpty = true
  fits : premove.fromPos = motion.destination
  accepted : engine.MoveAccepted motion.destination premove.toPos

theorem moveAccepted_clearPremoveAt (engine : GameEngine) (source fromPos toPos : Position) :
    (engine.clearPremoveAt source).MoveAccepted fromPos toPos ↔
      engine.MoveAccepted fromPos toPos :=
  ⟨fun h ↦ ⟨h.not_over, h.not_busy, h.valid⟩, fun h ↦ ⟨h.not_over, h.not_busy, h.valid⟩⟩

theorem tryExecutePremove_cases (engine : GameEngine) (moveSource arrival : Position) :
    (∃ premove ∈ engine.premoves moveSource,
      (premove.fromPos = arrival ∧ engine.MoveAccepted arrival premove.toPos) ∧
      engine.tryExecutePremove moveSource arrival = (engine.clearPremoveAt moveSource).start
        (engine.newMove arrival premove.toPos)
        (.moveStarted (engine.moveStartedEvent arrival premove.toPos))) ∨
    (∀ premove ∈ engine.premoves moveSource,
      ¬ (premove.fromPos = arrival ∧ engine.MoveAccepted arrival premove.toPos)) ∧
      engine.tryExecutePremove moveSource arrival = engine.clearPremoveAt moveSource := by
  rw [tryExecutePremove]
  split
  · rename_i hnone
    exact .inr ⟨fun premove hmem ↦ absurd (hnone ▸ hmem) (Option.not_mem_none _),
      (clearPremoveAt_of_none hnone).symm⟩
  rename_i premove hpremove
  simp only
  have honly : ∀ other ∈ engine.premoves moveSource, other = premove := fun other hother ↦
    (Option.some_inj.1 (hpremove.symm.trans hother)).symm
  by_cases hfits : premove.fromPos = arrival
  swap
  · rw [if_pos hfits]
    refine .inr ⟨fun other hother h ↦ hfits ?_, rfl⟩
    rw [← honly other hother]
    exact h.1
  rw [if_neg (not_not.2 hfits)]
  by_cases haccepted : engine.MoveAccepted arrival premove.toPos
  · left
    have hcleared := (engine.moveAccepted_clearPremoveAt moveSource arrival premove.toPos).2
      haccepted
    refine ⟨premove, hpremove, ⟨hfits, haccepted⟩, ?_⟩
    rw [if_neg (by simpa using hcleared.valid), requestMove_of_accepted hcleared]
    rfl
  · right
    refine ⟨fun other hother h ↦ haccepted ?_, ?_⟩
    · rw [← honly other hother]
      exact h.2
    split
    · rfl
    · rcases requestMove_cases (engine.clearPremoveAt moveSource) arrival premove.toPos with
        heq | ⟨hcleared, -⟩
      · rw [heq]
      · exact absurd ((engine.moveAccepted_clearPremoveAt ..).1 hcleared) haccepted

/-- The step for one completed move drops the premove stored under its source and starts it if it
is executable. -/
theorem processPremoveAfterAdvance_cases (engine : GameEngine) {motion : Motion}
    (htype : motion.type = .move) :
    (∃ premove ∈ engine.premoves motion.source, engine.Executable motion premove ∧
      engine.processPremoveAfterAdvance motion = (engine.clearPremoveAt motion.source).start
        (engine.newMove motion.destination premove.toPos)
        (.moveStarted (engine.moveStartedEvent motion.destination premove.toPos))) ∨
    (∀ premove ∈ engine.premoves motion.source, ¬ engine.Executable motion premove) ∧
      engine.processPremoveAfterAdvance motion = engine.clearPremoveAt motion.source := by
  rw [processPremoveAfterAdvance, if_neg (not_not.2 htype)]
  simp only
  by_cases hsource : (engine.board.cell motion.source).isEmpty = true
  swap
  · rw [if_pos (by simpa using hsource)]
    exact .inr ⟨fun _ _ h ↦ hsource h.vacated, rfl⟩
  rw [if_neg (by simp [hsource])]
  by_cases hdestination : (engine.board.cell motion.destination).isEmpty = true
  · rw [if_pos hdestination]
    refine .inr ⟨fun premove _ h ↦ ?_, rfl⟩
    have hoccupied := (validated_of_validateMove h.accepted.valid).occupied
    exact Bool.false_ne_true (hoccupied.symm.trans hdestination)
  rw [if_neg hdestination]
  rcases engine.tryExecutePremove_cases motion.source motion.destination with
    ⟨premove, hmem, ⟨hfits, haccepted⟩, heq⟩ | ⟨hnone, heq⟩
  · exact .inl ⟨premove, hmem, ⟨hsource, hfits, haccepted⟩, heq⟩
  · exact .inr ⟨fun premove hmem h ↦ hnone premove hmem ⟨h.fits, h.accepted⟩, heq⟩

/-! ## The premoves of a call -/

/-- The engine when the premove of a completing move is looked up. -/
def premoveTurn (engine : GameEngine) (ms : ℤ) (motion : Motion) : GameEngine :=
  ((engine.completing ms).takeWhile (· ≠ motion)).foldl processPremoveAfterAdvance
    (engine.afterArrivals ms)

/-- The motions that the premove of a completing move starts. -/
def startedByPremove (engine : GameEngine) (ms : ℤ) (motion : Motion) : List Motion :=
  if (engine.afterArrivals ms).isGameOver then []
  else ((engine.premoveTurn ms motion).processPremoveAfterAdvance motion).activeMotions.filter
    (· ∉ (engine.premoveTurn ms motion).activeMotions)

/-- A premove is stored for the completing move that the engine would accept as the arrivals leave
it. -/
def PremoveReady (engine : GameEngine) (ms : ℤ) (motion : Motion) : Prop :=
  ∃ premove ∈ engine.premoves motion.source, (engine.afterArrivals ms).Executable motion premove

/-- What the premoves of some completing moves leave behind. -/
structure PremovesDone (engine : GameEngine) (ms : ℤ) (past : List Motion) (later : GameEngine) :
    Prop where
  lifecycle : later.Lifecycle
  board : later.board = (engine.afterArrivals ms).board
  isGameOver : later.isGameOver = (engine.afterArrivals ms).isGameOver
  premoves : ∀ source, (∀ motion ∈ past, motion.source ≠ source) →
    later.premoves source = engine.premoves source
  /-- The squares from which a premove has started are busy, and no others have become so. -/
  isBusyAt : ∀ pos, later.isBusyAt pos = true ↔ (engine.afterArrivals ms).isBusyAt pos = true ∨
    ∃ motion ∈ past, motion.destination = pos ∧ engine.PremoveReady ms motion

theorem isBusyAt_start (engine : GameEngine) (motion : Motion) (event : GameEvent)
    (pos : Position) : (engine.start motion event).isBusyAt pos = true ↔
      engine.isBusyAt pos = true ∨ motion.source = pos := by
  simp only [isBusyAt, activeMotions_start, List.any_append, List.any_cons, List.any_nil,
    Bool.or_false, Bool.or_eq_true, decide_eq_true_eq]

section PremovesDone

variable {engine later : GameEngine} {ms : ℤ} {past : List Motion} {motion : Motion}

/-- A premove is executable at its turn if it is ready and no earlier completing move to the same
square has a ready premove. -/
theorem PremovesDone.executable_iff (h : engine.PremovesDone ms past later) {premove : Premove} :
    later.Executable motion premove ↔ (engine.afterArrivals ms).Executable motion premove ∧
      ∀ other ∈ past, other.destination = motion.destination → ¬ engine.PremoveReady ms other := by
  have hbusy := h.isBusyAt motion.destination
  constructor
  · rintro ⟨hvacated, hfits, haccepted⟩
    rw [h.board] at hvacated
    have hidle := haccepted.not_busy
    rw [← Bool.not_eq_true, hbusy, not_or] at hidle
    refine ⟨⟨hvacated, hfits, ?_⟩, fun other hother hsquare hready ↦
      hidle.2 ⟨other, hother, hsquare, hready⟩⟩
    exact
      { not_over := h.isGameOver ▸ haccepted.not_over
        not_busy := Bool.not_eq_true _ ▸ hidle.1
        valid := h.board ▸ haccepted.valid }
  · rintro ⟨⟨hvacated, hfits, haccepted⟩, hfirst⟩
    rw [← h.board] at hvacated
    refine ⟨hvacated, hfits, ?_⟩
    exact
      { not_over := h.isGameOver ▸ haccepted.not_over
        not_busy := by
          rw [← Bool.not_eq_true, hbusy]
          rintro (hold | ⟨other, hother, hsquare, hready⟩)
          · exact Bool.false_ne_true (haccepted.not_busy.symm.trans hold)
          · exact hfirst other hother hsquare hready
        valid := h.board ▸ haccepted.valid }

theorem PremovesDone.turn (h : engine.PremovesDone ms past later) (htype : motion.type = .move)
    (hsource : ∀ other ∈ past, other.source ≠ motion.source) :
    engine.PremovesDone ms (past ++ [motion]) (later.processPremoveAfterAdvance motion) := by
  have hpremoves := h.premoves motion.source hsource
  have hcleared : (later.clearPremoveAt motion.source).Lifecycle :=
    h.lifecycle.congr rfl rfl rfl fun _ ↦ rfl
  have hkept : ∀ source, (∀ other ∈ past ++ [motion], other.source ≠ source) →
      (later.clearPremoveAt motion.source).premoves source = engine.premoves source := by
    intro source hother
    rw [← h.premoves source fun other hmem ↦ hother other (List.mem_append_left _ hmem)]
    exact if_neg (Ne.symm (hother motion (by simp)))
  have hpast : ∀ pos, (∃ other ∈ past ++ [motion], other.destination = pos ∧
      engine.PremoveReady ms other) ↔ (∃ other ∈ past, other.destination = pos ∧
        engine.PremoveReady ms other) ∨
          motion.destination = pos ∧ engine.PremoveReady ms motion := by
    intro pos
    simp only [List.mem_append, List.mem_singleton, or_and_right, exists_or, exists_eq_left]
  rcases later.processPremoveAfterAdvance_cases htype with ⟨premove, hmem, hexecutable, heq⟩ |
    ⟨hnone, heq⟩
  · rw [heq]
    have haccepted := (later.moveAccepted_clearPremoveAt motion.source motion.destination
      premove.toPos).2 hexecutable.accepted
    have hready : engine.PremoveReady ms motion :=
      ⟨premove, hpremoves ▸ hmem, (h.executable_iff.1 hexecutable).1⟩
    refine
      { lifecycle := hcleared.start (startable_newMove haccepted) _
        board := h.board
        isGameOver := h.isGameOver
        premoves := hkept
        isBusyAt := fun pos ↦ ?_ }
    rw [isBusyAt_start, hpast, ← or_assoc, ← h.isBusyAt, and_iff_left hready]
    rfl
  · rw [heq]
    refine
      { lifecycle := hcleared
        board := h.board
        isGameOver := h.isGameOver
        premoves := hkept
        isBusyAt := fun pos ↦ ?_ }
    rw [hpast, ← or_assoc, ← h.isBusyAt]
    refine (or_iff_left_of_imp ?_).symm
    -- A ready premove that is not started finds the square taken by an earlier one.
    rintro ⟨rfl, premove, hmem, hready⟩
    change later.isBusyAt motion.destination = true
    rw [h.isBusyAt]
    by_contra hidle
    rw [not_or] at hidle
    refine hnone premove (hpremoves ▸ hmem) (h.executable_iff.2 ⟨hready, ?_⟩)
    exact fun other hother hsquare hother' ↦ hidle.2 ⟨other, hother, hsquare, hother'⟩

end PremovesDone

section Call

variable {engine : GameEngine} {ms : ℕ}

theorem Lifecycle.premoveTurn_eq (h : engine.Lifecycle) {past future : List Motion}
    {motion : Motion} (hsplit : engine.completing ms = past ++ motion :: future) :
    engine.premoveTurn ms motion =
      Transition.run processPremoveAfterAdvance (engine.afterArrivals ms) past := by
  have hpast := h.resolvedBefore_eq hsplit
  rw [resolvedBefore, h.arrivals_eq] at hpast
  rw [premoveTurn, hpast]
  rfl

/-- At the turn of a premove those of the earlier completing moves are done. -/
theorem Lifecycle.premovesDone (h : engine.Lifecycle) {past future : List Motion}
    {motion : Motion} (hsplit : engine.completing ms = past ++ motion :: future) :
    engine.PremovesDone ms past (engine.premoveTurn ms motion) := by
  rw [h.premoveTurn_eq hsplit]
  refine Transition.run_induction (P := fun past later ↦ engine.PremovesDone ms past later)
    ?_ ?_ hsplit
  · exact
      { lifecycle := h.afterArrivals ms
        board := rfl
        isGameOver := rfl
        premoves := fun source _ ↦ congrFun (premoves_afterArrivals engine ms) source
        isBusyAt := by simp }
  · intro past next future hsplit hdone
    have hmem : next ∈ engine.completing ms := by simp [hsplit]
    refine hdone.turn (mem_completing.1 hmem).2.1 ?_
    intro other hother hsource
    have hother' : other ∈ engine.completing ms := mem_completing_of_past hsplit hother
    rw [h.eq_of_source_eq (mem_completing.1 hother').1 (mem_completing.1 hmem).1 hsource] at hother
    exact h.notMem_past hsplit hother

/-- The premove of the move is ready, and it is the first such move to its square. -/
structure PremoveDue (engine : GameEngine) (ms : ℤ) (motion : Motion) : Prop where
  ready : engine.PremoveReady ms motion
  first : ∀ other ∈ engine.completing ms, other.destination = motion.destination →
    motionLess other motion = true → ¬ engine.PremoveReady ms other

/-- A premove is due if and only if the engine can execute it at its turn. -/
theorem Lifecycle.premoveDue_iff (h : engine.Lifecycle) {motion : Motion}
    (hmem : motion ∈ engine.completing ms) :
    engine.PremoveDue ms motion ↔ ∃ premove ∈ (engine.premoveTurn ms motion).premoves motion.source,
      (engine.premoveTurn ms motion).Executable motion premove := by
  obtain ⟨past, future, hsplit⟩ := List.append_of_mem hmem
  have hdone := h.premovesDone hsplit
  have hpast : ∀ other ∈ past, other ∈ engine.completing ms ∧ motionLess other motion = true :=
    fun other hother ↦ ⟨mem_completing_of_past hsplit hother, h.motionLess_of_split hsplit hother⟩
  have hpremoves : (engine.premoveTurn ms motion).premoves motion.source =
      engine.premoves motion.source := by
    apply hdone.premoves
    intro other hother hsource
    rw [h.eq_of_source_eq (mem_completing.1 (hpast other hother).1).1 (mem_completing.1 hmem).1
      hsource] at hother
    exact h.notMem_past hsplit hother
  rw [hpremoves]
  constructor
  · rintro ⟨⟨premove, hpremove, hready⟩, hfirst⟩
    refine ⟨premove, hpremove, hdone.executable_iff.2 ⟨hready, ?_⟩⟩
    exact fun other hother hsquare ↦
      hfirst other (hpast other hother).1 hsquare (hpast other hother).2
  · rintro ⟨premove, hpremove, hexecutable⟩
    rw [hdone.executable_iff] at hexecutable
    refine ⟨⟨premove, hpremove, hexecutable.1⟩, ?_⟩
    exact fun other hother hsquare hless ↦
      hexecutable.2 other (h.mem_past_of_motionLess hsplit hother hless) hsquare

/-- A premove starts a motion if and only if it is due, and it starts one from the destination of
the completed move. -/
theorem Lifecycle.startedByPremove_cases (h : engine.Lifecycle) {motion : Motion}
    (hmem : motion ∈ engine.completing ms) :
    (engine.PremoveDue ms motion ∧ ∃ started, engine.startedByPremove ms motion = [started] ∧
        started.source = motion.destination) ∨
      ¬ engine.PremoveDue ms motion ∧ engine.startedByPremove ms motion = [] := by
  obtain ⟨past, future, hsplit⟩ := List.append_of_mem hmem
  have hdone := h.premovesDone hsplit
  have hold : (engine.premoveTurn ms motion).activeMotions.filter
      (· ∉ (engine.premoveTurn ms motion).activeMotions) = [] := by
    rw [List.filter_eq_nil_iff]
    intro active hactive
    simpa using hactive
  rw [h.premoveDue_iff hmem, startedByPremove]
  rcases (engine.premoveTurn ms motion).processPremoveAfterAdvance_cases
    (mem_completing.1 hmem).2.1 with ⟨premove, hpremove, hexecutable, heq⟩ | ⟨hnone, heq⟩
  · left
    have hnew : (engine.premoveTurn ms motion).newMove motion.destination premove.toPos ∉
        (engine.premoveTurn ms motion).activeMotions :=
      fun hactive ↦ (hdone.lifecycle.ids _ hactive).ne rfl
    have hover := hexecutable.accepted.not_over
    rw [hdone.isGameOver] at hover
    refine ⟨⟨premove, hpremove, hexecutable⟩,
      (engine.premoveTurn ms motion).newMove motion.destination premove.toPos, ?_, rfl⟩
    rw [if_neg (by simp [hover]), heq, activeMotions_start, List.filter_append]
    change (engine.premoveTurn ms motion).activeMotions.filter _ ++ _ = _
    rw [hold, List.nil_append]
    exact List.filter_eq_self.2 fun started hstarted ↦
      decide_eq_true (List.mem_singleton.1 hstarted ▸ hnew)
  · right
    refine ⟨fun ⟨premove, hpremove, hexecutable⟩ ↦ hnone premove hpremove hexecutable, ?_⟩
    rw [heq]
    split
    · rfl
    · exact hold

/-- Every motion that the call starts is started by the premove of a completing move. -/
theorem Lifecycle.exists_startedByPremove (h : engine.Lifecycle) {started : Motion}
    (hmem : started ∈ engine.startedIn ms) :
    ∃ motion ∈ engine.completing ms, started ∈ engine.startedByPremove ms motion := by
  rw [startedIn, List.mem_filter, decide_eq_true_eq, advanceTime_eq, activeMotions,
    arbiter_applyCooldown] at hmem
  obtain ⟨hactive, hnew⟩ := hmem
  have hafter : started ∉ (engine.afterArrivals ms).activeMotions := by
    rw [activeMotions_afterArrivals]
    exact fun hold ↦ hnew (List.mem_of_mem_filter hold)
  cases hover : (engine.afterArrivals ms).isGameOver with
  | true =>
    rw [processPremovesAfterAdvance, if_pos hover] at hactive
    exact absurd hactive hafter
  | false =>
    have hrun : ∀ {past future : List Motion}, engine.completing ms = past ++ future →
        ∀ started ∈ (Transition.run processPremoveAfterAdvance (engine.afterArrivals ms)
          past).activeMotions, started ∉ (engine.afterArrivals ms).activeMotions →
            ∃ motion ∈ past, started ∈ engine.startedByPremove ms motion := by
      apply Transition.run_induction (P := fun (past : List Motion) (later : GameEngine) ↦
        ∀ started ∈ later.activeMotions, started ∉ (engine.afterArrivals ms).activeMotions →
          ∃ motion ∈ past, started ∈ engine.startedByPremove ms motion)
      · exact fun _ hold hnot ↦ absurd hold hnot
      · intro past motion future hsplit hpast started hactive hnot
        rw [← h.premoveTurn_eq hsplit] at hpast hactive
        by_cases hold : started ∈ (engine.premoveTurn ms motion).activeMotions
        · obtain ⟨mover, hmover, hstarted⟩ := hpast started hold hnot
          exact ⟨mover, List.mem_append_left _ hmover, hstarted⟩
        · refine ⟨motion, by simp, ?_⟩
          rw [startedByPremove, if_neg (by simp [hover]), List.mem_filter]
          exact ⟨hactive, decide_eq_true hold⟩
    rw [processPremovesAfterAdvance, if_neg (by simp [hover])] at hactive
    exact hrun (List.append_nil _).symm started hactive hafter

/-! ## Whose piece a premove moves -/

/-- Every motion that the call starts is started by the premove of a completing move, and it moves
the piece whose move to that square has landed. -/
def PremovesMoveOwn (engine : GameEngine) (ms : ℕ) : Prop :=
  (∀ started ∈ engine.startedIn ms,
    ∃ motion ∈ engine.completing ms, started ∈ engine.startedByPremove ms motion) ∧
  ∀ motion ∈ engine.completing ms, ∀ started ∈ engine.startedByPremove ms motion,
    started.source = motion.destination ∧ engine.Stays ms motion

instance (engine : GameEngine) (ms : ℕ) : Decidable (engine.PremovesMoveOwn ms) :=
  inferInstanceAs (Decidable ((∀ started ∈ engine.startedIn ms, _) ∧
    ∀ motion ∈ engine.completing ms, ∀ started ∈ engine.startedByPremove ms motion, _))

/-- Only the piece of the move can stand on its destination when its premove is looked up: no enemy
comes down there from a jump in this call, no enemy lands there before it, and its landing gives no
later move from there a piece to carry away. -/
structure Unrivalled (engine : GameEngine) (ms : ℤ) (motion : Motion) : Prop where
  noJumper : Enemy (engine.board.cell motion.destination) motion.pieceColor →
    ∀ jump ∈ engine.activeMotions, jump.type = .jump → jump.source = motion.destination →
      jump.isExpired (engine.elapsedMs + ms) = false
  noRival : ∀ rival ∈ engine.completing ms, rival.destination = motion.destination →
    motionLess rival motion = true → engine.MayLand ms rival →
      rival.pieceColor = motion.pieceColor
  noCarrier : ∀ carrier ∈ engine.completing ms, ¬ engine.Restores motion carrier

instance (engine : GameEngine) (ms : ℤ) (motion : Motion) :
    Decidable (engine.Unrivalled ms motion) :=
  decidable_of_iff ((Enemy (engine.board.cell motion.destination) motion.pieceColor →
      ∀ jump ∈ engine.activeMotions, jump.type = .jump → jump.source = motion.destination →
        jump.isExpired (engine.elapsedMs + ms) = false) ∧
      (∀ rival ∈ engine.completing ms, rival.destination = motion.destination →
        motionLess rival motion = true → engine.MayLand ms rival →
          rival.pieceColor = motion.pieceColor) ∧
      ∀ carrier ∈ engine.completing ms, ¬ engine.Restores motion carrier)
    ⟨fun ⟨noJumper, noRival, noCarrier⟩ ↦ ⟨noJumper, noRival, noCarrier⟩,
      fun h ↦ ⟨h.noJumper, h.noRival, h.noCarrier⟩⟩

/-- The game ends, or no completing move that may find its piece and has a rival has a premove that
sets out from its destination. -/
def NoForeignPremove (engine : GameEngine) (ms : ℕ) : Prop :=
  engine.EndsGame ms ∨ ∀ motion ∈ engine.completing ms, engine.MayDepart ms motion →
    ∀ premove ∈ engine.premoves motion.source, premove.fromPos = motion.destination →
      engine.Unrivalled ms motion

instance (engine : GameEngine) (ms : ℕ) : Decidable (engine.NoForeignPremove ms) :=
  inferInstanceAs (Decidable (_ ∨ ∀ motion ∈ engine.completing ms, _))

/-- The piece of a stale or blocked move keeps its premove from being executed. -/
theorem Lifecycle.resolved_of_premoveDue (h : engine.Lifecycle) (hoccupied : engine.Occupied)
    {motion : Motion} (hmem : motion ∈ engine.completing ms) (hdue : engine.PremoveDue ms motion) :
    engine.result ms motion ≠ .stale ∧ engine.result ms motion ≠ .blocked := by
  obtain ⟨⟨_, _, hexecutable⟩, -⟩ := hdue
  have hvacated := hexecutable.vacated
  rw [(engine.sameKinds_afterArrivals ms).isEmpty] at hvacated
  rw [← not_or]
  intro hkept
  have hunvacated : engine.Unvacated ms (engine.completing ms) motion.source := by
    intro other hother hsource
    rwa [h.eq_of_source_eq (mem_completing.1 hother).1 (mem_completing.1 hmem).1 hsource]
  have hfull := (h.frame_arrivalTick ms).occupied hunvacated (by
    rw [(engine.sameKinds_arrivalStart ms).isEmpty]
    exact hoccupied motion (mem_completing.1 hmem).1)
  exact Bool.false_ne_true (hfull.symm.trans hvacated)

/-- A premove is executed for a move without rivals only if the move has landed. -/
theorem Lifecycle.landed_of_premoveDue (h : engine.Lifecycle) (hoccupied : engine.Occupied)
    (hair : engine.Airborne) {motion : Motion} (hmem : motion ∈ engine.completing ms)
    (hdue : engine.PremoveDue ms motion) (hunrivalled : engine.Unrivalled ms motion) :
    engine.result ms motion = .landed := by
  obtain ⟨past, future, hsplit⟩ := List.append_of_mem hmem
  obtain ⟨hstale, hblocked⟩ := h.resolved_of_premoveDue hoccupied hmem hdue
  have hspec := engine.result_spec ms motion
  cases hresult : engine.result ms motion with
  | landed => rfl
  | stale => exact absurd hresult hstale
  | blocked => exact absurd hresult hblocked
  | jumpCaptured =>
    rw [hresult] at hspec
    obtain ⟨-, henemy, hactive⟩ := hspec
    have hkind := h.kind_turn_of_jump hair hsplit hactive
    obtain ⟨jump, hjump, htype, hsource⟩ := isJumpActiveAt_iff.1 hactive
    have hrunning := hunrivalled.noJumper
      ⟨(Piece.isEmpty_congr hkind).symm.trans henemy.1,
        (Piece.color_congr hkind).symm.trans henemy.2⟩ jump hjump htype hsource
    -- A jump that is not over keeps the square busy, and no premove starts from there.
    obtain ⟨⟨_, _, hexecutable⟩, -⟩ := hdue
    have hidle := hexecutable.accepted.not_busy
    rw [not_busy_iff] at hidle
    refine absurd hsource (hidle jump ?_)
    rw [activeMotions_afterArrivals, List.mem_filter, hrunning]
    exact ⟨hjump, rfl⟩
  | lostTie =>
    rw [hresult] at hspec
    obtain ⟨-, henemy, -, harrived⟩ := hspec
    rcases (h.frame_turn hsplit).arrived _ harrived with hempty |
      ⟨rival, hrival, hlanded, hsquare, his⟩
    · rw [hempty] at henemy
      exact absurd henemy.1 Bool.true_eq_false.mp
    have hcompleting : rival ∈ engine.completing ms := mem_completing_of_past hsplit hrival
    have hcolor := hunrivalled.noRival rival hcompleting hsquare
      (h.motionLess_of_split hsplit hrival) (h.mayLand hoccupied hair hcompleting hlanded)
    rw [← hcolor] at henemy
    exact absurd (his.2.2.symm.trans henemy.2) (Color.ne_opposite _)

/-- The piece of a move without rivals is not carried away from its destination. -/
theorem Lifecycle.stays_of_unrivalled (h : engine.Lifecycle) (hoccupied : engine.Occupied)
    {motion : Motion} (hmem : motion ∈ engine.completing ms)
    (hresult : engine.result ms motion = .landed) (hunrivalled : engine.Unrivalled ms motion) :
    engine.Stays ms motion := by
  refine h.stays_of_stopped hmem hresult fun carrier hcarrier hsource hless ↦ ?_
  by_contra hleft
  rw [not_or] at hleft
  obtain ⟨past, future, hsplit⟩ := List.append_of_mem hcarrier
  have hpast := h.mem_past_of_motionLess hsplit hmem hless
  have harrived : carrier.source ∈ (engine.turn ms carrier).arrivedThisTick :=
    ((h.mem_arrived ms).1 past carrier future hsplit _).2 ⟨motion, hpast, hresult, hsource.symm⟩
  obtain ⟨captor, hcaptor, hlanded, hrestores⟩ :=
    h.exists_restores hoccupied hsplit (valid_of_ne_stale hleft.1) harrived
  have hunvacated := h.unvacated hsplit (mem_completing.1 hcarrier).1 (h.notMem_past hsplit)
  have hsame : captor = motion :=
    h.eq_of_landed hsplit hunvacated hcaptor hpast hlanded hresult hrestores.square hsource.symm
  exact hunrivalled.noCarrier carrier hcarrier (hsame ▸ hrestores)

theorem Lifecycle.premovesMoveOwn (h : engine.Lifecycle) (hoccupied : engine.Occupied)
    (hair : engine.Airborne) (hnone : engine.NoForeignPremove ms) : engine.PremovesMoveOwn ms := by
  refine ⟨fun started ↦ h.exists_startedByPremove, ?_⟩
  intro motion hmem started hstarted
  rcases h.startedByPremove_cases hmem with ⟨hdue, _, heq, hsource⟩ | ⟨-, heq⟩
  swap
  · exact absurd (heq ▸ hstarted) List.not_mem_nil
  rw [heq, List.mem_singleton] at hstarted
  subst hstarted
  obtain ⟨premove, hpremove, hexecutable⟩ := hdue.ready
  have hgoing : (engine.advanceTime ms).isGameOver = false := by
    rw [isGameOver_advanceTime, ← isGameOver_afterArrivals]
    exact hexecutable.accepted.not_over
  have hrivals := hnone.resolve_left fun hends ↦
    Bool.false_ne_true (hgoing.symm.trans ((engine.isGameOver_advanceTime_iff ms).2 hends))
  have hdeparts := h.mayDepart hoccupied hmem
    (valid_of_ne_stale (h.resolved_of_premoveDue hoccupied hmem hdue).1)
  have hunrivalled := hrivals motion hmem hdeparts premove hpremove hexecutable.fits
  have hresult := h.landed_of_premoveDue hoccupied hair hmem hdue hunrivalled
  exact ⟨hsource, h.stays_of_unrivalled hoccupied hmem hresult hunrivalled⟩

end Call

/-- In every reachable state, every motion that a call starts is started by the premove of a
completing move and moves the piece of that move, which has landed and stays, if no premove is
stored for a move that has a rival. -/
theorem premovesMoveOwn_of_noForeignPremove (before : GameEngine) (ops : List Op) (ms : ℕ)
    (hnone : (before.reset.run ops).NoForeignPremove ms) :
    (before.reset.run ops).PremovesMoveOwn ms := by
  obtain ⟨hlife, hoccupied⟩ := (reachable_run before ops).lifecycle_occupied
  exact hlife.premovesMoveOwn hoccupied (reachable_run before ops).airborne hnone

/-- The only premoves that the controller queues: those of a running move, in the tick in which it
was started, for a clicked square of the board that holds no piece of the selected one's colour. -/
def QueuedByClick (engine : GameEngine) : Op → Prop
  | .queuePremove key fromPos toPos =>
    engine.isGameOver = false ∧ engine.board.inBounds toPos = true ∧
      ((engine.board.cell toPos).isEmpty = true ∨
        (engine.board.cell toPos).color ≠ (engine.board.cell key).color) ∧
      engine.isBusyAt key = true ∧ engine.isActiveMoveStartTick key = true ∧
      engine.getActiveMoveDestination key = some fromPos
  | _ => True

instance (engine : GameEngine) (op : Op) : Decidable (engine.QueuedByClick op) :=
  match op with
  | .queuePremove .. => inferInstanceAs (Decidable (_ ∧ _))
  | .requestMove .. | .requestJump _ | .advanceTime _ | .remoteGameEnded _ => .isTrue trivial

/-- Alone on its way to the corner, the white rook goes on as its premove says. -/
theorem premovesMoveOwn_in_corner :
    ((reset { board := cornerBoard }).run
      [.requestMove ⟨0, 0⟩ ⟨0, 2⟩, .queuePremove ⟨0, 0⟩ ⟨0, 2⟩ ⟨0, 1⟩]).PremovesMoveOwn 2000 :=
  premovesMoveOwn_of_noForeignPremove { board := cornerBoard } _ 2000 (by decide)

/-- The white rook loses the tie for the corner, and its premove moves the black rook. -/
theorem premove_of_tie_loser_moves_winner :
    Transition.Along step QueuedByClick (reset { board := cornerBoard })
        [.requestMove ⟨2, 2⟩ ⟨0, 2⟩, .requestMove ⟨0, 0⟩ ⟨0, 2⟩,
          .queuePremove ⟨0, 0⟩ ⟨0, 2⟩ ⟨0, 1⟩] ∧
      ¬ ((reset { board := cornerBoard }).run
        [.requestMove ⟨2, 2⟩ ⟨0, 2⟩, .requestMove ⟨0, 0⟩ ⟨0, 2⟩,
          .queuePremove ⟨0, 0⟩ ⟨0, 2⟩ ⟨0, 1⟩]).PremovesMoveOwn 2000 := by
  decide

end GameEngine

end KongFuChess.Engine
