import KongFuChess.Engine.Premoves
import KongFuChess.Engine.Uncontested
import Mathlib.Data.Set.Card
import Mathlib.Order.CompletePartialOrder

/-!
# Every game comes to rest

An engine that is left alone comes to rest. Whatever is in flight has arrived once the longest
motion of the board could have been completed, and what is in flight then has been started by a
premove in the meantime. No premove is executed twice, so the rounds of that length in which
something is started are at most as many as the premoves that are stored.
-/

namespace KongFuChess.Engine

open Model Realtime Rules Events

/-- The time of the longest motion that the board has room for. -/
def longestMs (board : Board) : ℤ :=
  max GameConfig.kJumpDurationMs
    ((max (board.rows : ℤ) board.cols - 1) * GameConfig.kMoveDurationMs)

theorem distance_le {board : Board} {fromPos toPos : Position}
    (hfrom : board.inBounds fromPos = true) (hto : board.inBounds toPos = true) :
    (distance fromPos toPos : ℤ) ≤ max (board.rows : ℤ) board.cols - 1 := by
  rw [Board.inBounds_iff] at hfrom hto
  obtain ⟨hfromRow, hfromRows, hfromCol, hfromCols⟩ := hfrom
  obtain ⟨htoRow, htoRows, htoCol, htoCols⟩ := hto
  unfold distance
  omega

/-- Boards with the same squares have the same number of columns. -/
theorem cols_eq_of_inBounds {left right : Board} (hrows : left.rows = right.rows)
    (hbounds : ∀ pos, left.inBounds pos = right.inBounds pos) : left.cols = right.cols := by
  have hiff : ∀ row col : ℤ, left.InBounds row col ↔ right.InBounds row col := by
    intro row col
    have hsame := hbounds ⟨row, col⟩
    rwa [Board.inBounds, Board.inBounds, decide_eq_decide] at hsame
  rcases Nat.eq_zero_or_pos left.rows with hnone | hsome
  · have hleft : left.cells = [] := List.length_eq_zero_iff.1 hnone
    have hright : right.cells = [] := List.length_eq_zero_iff.1 (hrows.symm.trans hnone)
    rw [Grid.cols, Grid.cols, hleft, hright]
  · apply le_antisymm
    · by_contra hlt
      have hin := (hiff 0 right.cols).1 ⟨le_rfl, by omega, by omega, by omega⟩
      exact absurd hin.2.2.2 (lt_irrefl _)
    · by_contra hlt
      have hin := (hiff 0 left.cols).2 ⟨le_rfl, by omega, by omega, by omega⟩
      exact absurd hin.2.2.2 (lt_irrefl _)

namespace GameEngine

/-! ## How long motions take -/

/-- Every motion in flight takes the time that its kind and its squares give it. -/
structure Timed (engine : GameEngine) : Prop where
  move : ∀ motion ∈ engine.activeMotions, motion.type = .move →
    motion.durationMs = distance motion.source motion.destination * GameConfig.kMoveDurationMs
  jump : ∀ motion ∈ engine.activeMotions, motion.type = .jump →
    motion.durationMs = GameConfig.kJumpDurationMs

theorem timed_reset (engine : GameEngine) : engine.reset.Timed :=
  ⟨fun _ h ↦ absurd h List.not_mem_nil, fun _ h ↦ absurd h List.not_mem_nil⟩

theorem Timed.step {engine : GameEngine} (h : engine.Timed) (op : Op) : (engine.step op).Timed where
  move := forall_active_step (fun _ _ _ _ _ ↦ rfl)
    (fun _ _ _ hmove ↦ absurd hmove (by simp [newJump])) h.move op
  jump := forall_active_step (fun _ _ _ _ hjump ↦ absurd hjump (by simp [newMove]))
    (fun _ _ _ _ ↦ rfl) h.jump op

theorem Timed.duration_le {engine : GameEngine} (h : engine.Timed) (hlife : engine.Lifecycle)
    {motion : Motion} (hmem : motion ∈ engine.activeMotions) :
    motion.durationMs ≤ longestMs engine.board := by
  unfold longestMs
  cases htype : motion.type with
  | move =>
    have hboard := hlife.onBoard motion hmem htype
    have hdistance := distance_le hboard.source hboard.destination
    rw [h.move motion hmem htype]
    simp only [GameConfig.kMoveDurationMs]
    omega
  | jump =>
    rw [h.jump motion hmem htype]
    exact le_max_left _ _

/-! ## What starts while time passes -/

/-- The squares under which a premove is stored. -/
def stored (engine : GameEngine) : Set Position := {source | engine.hasPremoveAt source = true}

/-- No premove has been stored between the two states, and what has been started has used one up. -/
structure Spends (engine later : GameEngine) : Prop where
  stored : later.stored ⊆ engine.stored
  started : later.activeMotions ⊆ engine.activeMotions ∨ later.stored ⊂ engine.stored

theorem Spends.refl (engine : GameEngine) : engine.Spends engine :=
  ⟨subset_rfl, .inl (List.Subset.refl _)⟩

theorem Spends.trans {engine later last : GameEngine} (h : engine.Spends later)
    (h' : later.Spends last) : engine.Spends last where
  stored := h'.stored.trans h.stored
  started := by
    rcases h.started with hkept | hfewer
    · rcases h'.started with hkept' | hfewer'
      · exact .inl (List.Subset.trans hkept' hkept)
      · exact .inr (hfewer'.trans_subset h.stored)
    · exact .inr (h'.stored.trans_ssubset hfewer)

/-- The relation reads the motions and the premoves only. -/
theorem Spends.of_eq {engine later : GameEngine}
    (hactive : later.activeMotions = engine.activeMotions)
    (hpremoves : later.premoves = engine.premoves) : engine.Spends later where
  stored := by
    unfold GameEngine.stored hasPremoveAt
    rw [hpremoves]
  started := .inl (by
    rw [hactive]
    exact List.Subset.refl _)

theorem mem_stored_clearPremoveAt (engine : GameEngine) (source key : Position) :
    key ∈ (engine.clearPremoveAt source).stored ↔ key ≠ source ∧ key ∈ engine.stored := by
  simp only [stored, hasPremoveAt, clearPremoveAt, Set.mem_ofPred_eq]
  split <;> simp_all

theorem spends_clearPremoveAt (engine : GameEngine) (source : Position) :
    engine.Spends (engine.clearPremoveAt source) :=
  ⟨fun key hkey ↦ ((engine.mem_stored_clearPremoveAt source key).1 hkey).2,
    .inl (List.Subset.refl _)⟩

/-- The step for one completed move drops the premove that it starts. -/
theorem spends_processPremove (engine : GameEngine) (motion : Motion) :
    engine.Spends (engine.processPremoveAfterAdvance motion) := by
  by_cases htype : motion.type = .move
  swap
  · rw [processPremoveAfterAdvance, if_pos htype]
    exact .refl engine
  rcases engine.processPremoveAfterAdvance_cases htype with ⟨premove, hmem, -, heq⟩ | ⟨-, heq⟩
  · rw [heq]
    have hfewer : (engine.clearPremoveAt motion.source).stored ⊂ engine.stored := by
      refine ⟨(engine.spends_clearPremoveAt motion.source).stored, fun hsubset ↦ ?_⟩
      have hstored : motion.source ∈ engine.stored := Option.isSome_iff_exists.2 ⟨premove, hmem⟩
      exact ((engine.mem_stored_clearPremoveAt motion.source motion.source).1 (hsubset hstored)).1
        rfl
    exact ⟨hfewer.subset, .inr hfewer⟩
  · rw [heq]
    exact engine.spends_clearPremoveAt motion.source

theorem spends_advanceTime (engine : GameEngine) (ms : ℤ) :
    engine.Spends (engine.advanceTime ms) := by
  have harrivals : engine.Spends (engine.afterArrivals ms) := by
    constructor
    · unfold stored hasPremoveAt
      rw [premoves_afterArrivals]
    · left
      rw [activeMotions_afterArrivals]
      exact List.filter_subset_self _
  have hpremoves : engine.Spends ((engine.afterArrivals ms).processPremovesAfterAdvance
      (engine.completing ms)) := by
    unfold processPremovesAfterAdvance
    split
    · exact harrivals
    · exact List.foldlRecOn (motive := engine.Spends) _ _ harrivals
        fun later hlater motion _ ↦ hlater.trans (later.spends_processPremove motion)
  have hmotions : (engine.advanceTime ms).activeMotions =
      ((engine.afterArrivals ms).processPremovesAfterAdvance
        (engine.completing ms)).activeMotions := by
    rw [advanceTime_eq, activeMotions, arbiter_applyCooldown]
    rfl
  have hstored : (engine.advanceTime ms).premoves =
      ((engine.afterArrivals ms).processPremovesAfterAdvance (engine.completing ms)).premoves := by
    rw [advanceTime_eq, premoves_applyCooldown]
  exact hpremoves.trans (.of_eq hmotions hstored)

/-! ## Waiting -/

abbrev waitFor (engine : GameEngine) (ms : ℕ) : GameEngine := engine.advanceTime ms

/-- Let time pass in several calls. -/
abbrev wait (engine : GameEngine) (delays : List ℕ) : GameEngine :=
  Transition.run waitFor engine delays

theorem spends_wait (engine : GameEngine) (delays : List ℕ) : engine.Spends (engine.wait delays) :=
  Transition.run_invariant waitFor (I := engine.Spends)
    (fun later ms hlater ↦ hlater.trans (later.spends_advanceTime ms)) (.refl engine) delays

theorem elapsedMs_wait (engine : GameEngine) (delays : List ℕ) :
    (engine.wait delays).elapsedMs = engine.elapsedMs + (delays.sum : ℕ) := by
  induction delays generalizing engine with
  | nil => simp
  | cons ms delays ih =>
    have hlater := ih (engine.advanceTime ms)
    rw [elapsedMs_advanceTime] at hlater
    rw [List.sum_cons, wait, Transition.run_cons]
    refine hlater.trans ?_
    push_cast
    omega

/-- With nothing in flight only the clock and the cooldowns run. -/
theorem advanceTime_of_idle {engine : GameEngine} (hidle : engine.activeMotions = []) (ms : ℤ) :
    engine.advanceTime ms =
      { engine with
        board := decreaseAllCooldowns engine.board ms
        arbiter := { activeMotions := [], elapsedMs := engine.elapsedMs + ms } } := by
  have hcompleting := completing_of_activeMotions hidle ms
  have hchecked : engine.checkGameOverFromCompletingMoves [] = engine := by
    rw [checkGameOver_eq]
    split <;> rfl
  have harbiter : engine.arbiter.advanceTime ms engine.board =
      ({ activeMotions := [], elapsedMs := engine.elapsedMs + ms },
        decreaseAllCooldowns engine.board ms, []) := by
    rw [activeMotions] at hidle
    rw [RealTimeArbiter.advanceTime, hidle]
    rfl
  have hafter : engine.afterArrivals ms =
      { engine with
        board := decreaseAllCooldowns engine.board ms
        arbiter := { activeMotions := [], elapsedMs := engine.elapsedMs + ms } } := by
    rw [afterArrivals, hcompleting, hchecked, advanceArbiter, harbiter]
    rfl
  rw [advanceTime_eq, hcompleting, hafter, processPremovesAfterAdvance]
  split <;> rfl

/-- Time passes without effect: the two engines differ in the clock and in the cooldowns only. -/
structure Dormant (engine later : GameEngine) : Prop where
  idle : later.activeMotions = []
  board : SameKinds later.board engine.board
  eventBus : later.eventBus = engine.eventBus
  moveLog : later.moveLog = engine.moveLog
  isGameOver : later.isGameOver = engine.isGameOver
  winner : later.winner = engine.winner
  premoves : later.premoves = engine.premoves

theorem Dormant.advanceTime {engine later : GameEngine} (h : engine.Dormant later) (ms : ℤ) :
    engine.Dormant (later.advanceTime ms) := by
  rw [advanceTime_of_idle h.idle]
  exact
    { idle := rfl
      board := (sameKinds_decreaseAllCooldowns later.board ms).trans h.board
      eventBus := h.eventBus
      moveLog := h.moveLog
      isGameOver := h.isGameOver
      winner := h.winner
      premoves := h.premoves }

theorem dormant_wait {engine : GameEngine} (hidle : engine.activeMotions = [])
    (delays : List ℕ) : engine.Dormant (engine.wait delays) :=
  Transition.run_invariant waitFor (I := engine.Dormant) (fun _ ms hlater ↦ hlater.advanceTime ms)
    ⟨hidle, .refl _, rfl, rfl, rfl, rfl, rfl⟩ delays

/-! ## Rounds -/

/-- What an engine keeps of the game on `board` while time passes. -/
structure Winding (board : Board) (engine : GameEngine) : Prop where
  lifecycle : engine.Lifecycle
  timed : engine.Timed
  finite : engine.stored.Finite
  longest : longestMs engine.board = longestMs board

theorem Lifecycle.longestMs_advanceTime {engine : GameEngine} (h : engine.Lifecycle) (ms : ℤ) :
    longestMs (engine.advanceTime ms).board = longestMs engine.board := by
  have hrows := h.rows_advanceTime ms
  have hcols := cols_eq_of_inBounds hrows (h.inBounds_advanceTime ms)
  rw [longestMs, hrows, hcols, longestMs]

theorem Winding.advanceTime {board : Board} {engine : GameEngine} (h : engine.Winding board)
    (ms : ℕ) : (engine.advanceTime ms).Winding board where
  lifecycle := h.lifecycle.advanceTime ms
  timed := h.timed.step (.advanceTime ms)
  finite := h.finite.subset (engine.spends_advanceTime ms).stored
  longest := (h.lifecycle.longestMs_advanceTime ms).trans h.longest

/-- What is in flight at the end of a round has been started in it, at the expense of a premove. -/
theorem Winding.round {board : Board} {engine : GameEngine} (h : engine.Winding board)
    {delays : List ℕ} (hlong : longestMs board ≤ (delays.sum : ℕ)) :
    (engine.wait delays).activeMotions = [] ∨
      (engine.wait delays).stored.ncard < engine.stored.ncard := by
  have hlater : (engine.wait delays).Winding board :=
    Transition.run_invariant waitFor (I := Winding board)
      (fun _ ms hlater ↦ hlater.advanceTime ms) h delays
  rcases (engine.spends_wait delays).started with hkept | hfewer
  · left
    rw [List.eq_nil_iff_forall_not_mem]
    intro motion hmem
    have hstarted := h.lifecycle.started motion (hkept hmem)
    have hduration := h.timed.duration_le h.lifecycle (hkept hmem)
    have hrunning := hlater.lifecycle.unexpired motion hmem
    rw [isExpired_eq_false_iff, elapsedMs_wait] at hrunning
    rw [h.longest] at hduration
    omega
  · exact .inr (Set.ncard_lt_ncard hfewer h.finite)

theorem Winding.runs_down {board : Board} {engine : GameEngine} (h : engine.Winding board)
    {rounds : List (List ℕ)} (hlong : ∀ delays ∈ rounds, longestMs board ≤ (delays.sum : ℕ))
    (hrounds : engine.stored.ncard < rounds.length) :
    (engine.wait rounds.flatten).activeMotions = [] :=
  Transition.run_rounds waitFor (P := fun later ↦ later.activeMotions = [])
    (fun later ↦ later.stored.ncard) (fun _ ms hlater ↦ hlater.advanceTime ms)
    (fun _ ms _ hidle ↦ congrArg activeMotions (advanceTime_of_idle hidle ms))
    (fun _ _ hlater hround ↦ hlater.round hround) h hlong hrounds

/-! ## Runs -/

/-- The number of premoves that the operations queue. -/
def queuedPremoves (ops : List Op) : ℕ :=
  ops.countP fun
    | .queuePremove .. => true
    | _ => false

/-- At most the premoves that have been queued are stored. -/
structure FewStored (count : ℕ) (engine : GameEngine) : Prop where
  finite : engine.stored.Finite
  card_le : engine.stored.ncard ≤ count

theorem FewStored.subset {engine later : GameEngine} {count : ℕ} (h : engine.FewStored count)
    (hstored : later.stored ⊆ engine.stored) : later.FewStored count :=
  ⟨h.finite.subset hstored, (Set.ncard_le_ncard hstored h.finite).trans h.card_le⟩

theorem FewStored.queuePremove {engine : GameEngine} {count : ℕ} (h : engine.FewStored count)
    (key fromPos toPos : Position) :
    (engine.queuePremove key fromPos toPos).FewStored (count + 1) := by
  have hsubset : (engine.queuePremove key fromPos toPos).stored ⊆ insert key engine.stored := by
    intro source hsource
    simp only [stored, hasPremoveAt, GameEngine.queuePremove, Set.mem_ofPred_eq] at hsource
    by_cases hkey : source = key
    · exact .inl hkey
    · rw [if_neg hkey] at hsource
      exact .inr hsource
  refine ⟨(h.finite.insert key).subset hsubset, ?_⟩
  calc
    _ ≤ (insert key engine.stored).ncard := Set.ncard_le_ncard hsubset (h.finite.insert key)
    _ ≤ engine.stored.ncard + 1 := Set.ncard_insert_le key engine.stored
    _ ≤ count + 1 := Nat.add_le_add_right h.card_le 1

theorem FewStored.step {engine : GameEngine} {count : ℕ} (h : engine.FewStored count) (op : Op) :
    (engine.step op).FewStored (count + queuedPremoves [op]) := by
  cases op with
  | requestMove fromPos toPos =>
    exact requestMove_induction (P := FewStored count) (fun _ ↦ ⟨h.finite, h.card_le⟩) h
  | requestJump pos =>
    exact requestJump_induction (P := FewStored count) (fun _ ↦ ⟨h.finite, h.card_le⟩) h
  | queuePremove key fromPos toPos => exact h.queuePremove key fromPos toPos
  | advanceTime ms => exact h.subset (engine.spends_advanceTime ms).stored
  | remoteGameEnded winner =>
    rw [step_remoteGameEnded]
    split
    · exact h
    · exact ⟨h.finite, h.card_le⟩

theorem FewStored.run {engine : GameEngine} {count : ℕ} (h : engine.FewStored count)
    (ops : List Op) : (engine.run ops).FewStored (count + queuedPremoves ops) := by
  induction ops generalizing engine count with
  | nil => exact h
  | cons op ops ih =>
    have hlater := ih (h.step op)
    have hcount : queuedPremoves (op :: ops) = queuedPremoves [op] + queuedPremoves ops := by
      unfold queuedPremoves
      rw [← List.countP_append]
      rfl
    rwa [Nat.add_assoc, ← hcount] at hlater

theorem fewStored_reset (engine : GameEngine) : engine.reset.FewStored 0 := by
  have hnone : engine.reset.stored = ∅ := by
    rw [Set.eq_empty_iff_forall_notMem]
    exact fun _ hstored ↦ Bool.false_ne_true hstored
  constructor
  · rw [hnone]
    exact Set.finite_empty
  · rw [hnone, Set.ncard_empty]

theorem longestMs_run (before : GameEngine) (ops : List Op) :
    longestMs (before.reset.run ops).board = longestMs before.board := by
  have hrun := Transition.run_invariant step
    (I := fun later ↦ later.Lifecycle ∧ longestMs later.board = longestMs before.board)
    (fun engine op h ↦ ⟨h.1.step op, ?_⟩) ⟨lifecycle_reset before, rfl⟩ ops
  · exact hrun.2
  · cases op with
    | advanceTime ms => exact (h.1.longestMs_advanceTime ms).trans h.2
    | _ =>
      rw [board_step engine (by simp)]
      exact h.2

/-- Every game comes to rest: after any operations, and then more rounds of waiting than premoves
have been queued, each at least as long as the longest motion of the board and split into calls in
whatever way, nothing is in flight. From then on time passes without effect. -/
theorem settles (before : GameEngine) (ops : List Op) (rounds : List (List ℕ))
    (hlong : ∀ delays ∈ rounds, longestMs before.board ≤ (delays.sum : ℕ))
    (hrounds : queuedPremoves ops < rounds.length) :
    ((before.reset.run ops).wait rounds.flatten).activeMotions = [] ∧
      ∀ later, ((before.reset.run ops).wait rounds.flatten).Dormant
        ((before.reset.run ops).wait (rounds.flatten ++ later)) := by
  have hfew := (fewStored_reset before).run ops
  rw [Nat.zero_add] at hfew
  have hwinding : (before.reset.run ops).Winding before.board :=
    { lifecycle := (reachable_run before ops).lifecycle
      timed := Transition.run_invariant _ (fun _ op h ↦ h.step op) (timed_reset before) ops
      finite := hfew.finite
      longest := longestMs_run before ops }
  have hidle := hwinding.runs_down hlong (hfew.card_le.trans_lt hrounds)
  refine ⟨hidle, fun later ↦ ?_⟩
  have hsplit : (before.reset.run ops).wait (rounds.flatten ++ later) =
      ((before.reset.run ops).wait rounds.flatten).wait later := Transition.run_append ..
  rw [hsplit]
  exact dormant_wait hidle later

/-- A rook alone in its row. -/
def rookLane : Board where
  cells := [[.of .rook .white, .empty, .empty, .empty, .empty]]
  rectangular := by decide

/-- The rook is sent on its way and told to go on. -/
def rookErrands : GameEngine :=
  ({ board := rookLane } : GameEngine).reset.run
    [.requestMove ⟨0, 0⟩ ⟨0, 2⟩, .queuePremove ⟨0, 0⟩ ⟨0, 2⟩ ⟨0, 4⟩]

/-- The first round starts the premove, and the second one lets it arrive. -/
theorem settles_rookErrands :
    (rookErrands.wait [4000]).activeMotions ≠ [] ∧
      (rookErrands.wait [4000, 1500, 2500]).activeMotions = [] :=
  ⟨by decide, (settles { board := rookLane } _ [[4000], [1500, 2500]] (by decide)
    (by decide)).1⟩

end GameEngine

end KongFuChess.Engine
