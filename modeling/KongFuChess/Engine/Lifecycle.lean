import KongFuChess.Engine.Run

/-!
# The lifecycle of motions

The active motions of a reachable engine have pairwise different sources on the board, are listed
in the order in which they were started, and none of them has expired. These facts make the two
computations of the completing moves agree, the unsorted one of the engine and the sorted one of
the arbiter, and they fix the call of `advanceTime` in which a motion leaves the list.
-/

namespace KongFuChess.Engine

open Model Realtime Rules Events

namespace GameEngine

/-- The lifecycle invariant. -/
structure Lifecycle (engine : GameEngine) : Prop where
  sources : (engine.activeMotions.map (·.source)).Nodup
  inBounds : ∀ motion ∈ engine.activeMotions, engine.board.inBounds motion.source = true
  onBoard : ∀ motion ∈ engine.activeMotions, motion.type = .move → motion.OnBoard engine.board
  started : ∀ motion ∈ engine.activeMotions, motion.startedAtMs ≤ engine.elapsedMs
  duration : ∀ motion ∈ engine.activeMotions, 0 < motion.durationMs
  ordered : engine.activeMotions.Pairwise fun first second ↦ motionLess first second = true
  ids : ∀ motion ∈ engine.activeMotions, motion.motionId < engine.nextMotionId
  unexpired : ∀ motion ∈ engine.activeMotions, motion.isExpired engine.elapsedMs = false

theorem isExpired_eq_false_iff (motion : Motion) (currentTimeMs : ℤ) :
    motion.isExpired currentTimeMs = false ↔
      currentTimeMs < motion.startedAtMs + motion.durationMs := by
  simp [Motion.isExpired]

theorem isExpired_iff (motion : Motion) (currentTimeMs : ℤ) :
    motion.isExpired currentTimeMs = true ↔
      motion.startedAtMs + motion.durationMs ≤ currentTimeMs := by
  simp [Motion.isExpired]

theorem lifecycle_reset (engine : GameEngine) : engine.reset.Lifecycle where
  sources := .nil
  inBounds := fun _ h ↦ absurd h List.not_mem_nil
  onBoard := fun _ h ↦ absurd h List.not_mem_nil
  started := fun _ h ↦ absurd h List.not_mem_nil
  duration := fun _ h ↦ absurd h List.not_mem_nil
  ordered := .nil
  ids := fun _ h ↦ absurd h List.not_mem_nil
  unexpired := fun _ h ↦ absurd h List.not_mem_nil

/-- The invariant depends only on the motions, the clock, the identifiers and the board size. -/
theorem Lifecycle.congr {engine later : GameEngine} (h : engine.Lifecycle)
    (hactive : later.activeMotions = engine.activeMotions)
    (helapsed : later.elapsedMs = engine.elapsedMs)
    (hids : later.nextMotionId = engine.nextMotionId)
    (hbounds : ∀ pos, later.board.inBounds pos = engine.board.inBounds pos) : later.Lifecycle where
  sources := hactive ▸ h.sources
  inBounds := fun motion hmem ↦ (hbounds _).trans (h.inBounds motion (hactive ▸ hmem))
  onBoard := fun motion hmem htype ↦ (h.onBoard motion (hactive ▸ hmem) htype).congr hbounds
  started := fun motion hmem ↦ helapsed ▸ h.started motion (hactive ▸ hmem)
  duration := fun motion hmem ↦ h.duration motion (hactive ▸ hmem)
  ordered := hactive ▸ h.ordered
  ids := fun motion hmem ↦ hids ▸ h.ids motion (hactive ▸ hmem)
  unexpired := fun motion hmem ↦ helapsed ▸ h.unexpired motion (hactive ▸ hmem)

/-- A motion that may be appended to the active ones. -/
structure Startable (engine : GameEngine) (motion : Motion) : Prop where
  not_busy : engine.isBusyAt motion.source = false
  inBounds : engine.board.inBounds motion.source = true
  onBoard : motion.type = .move → motion.OnBoard engine.board
  started : motion.startedAtMs = engine.elapsedMs
  duration : 0 < motion.durationMs
  id : motion.motionId = engine.nextMotionId

theorem distance_pos {fromPos toPos : Position} (h : fromPos ≠ toPos) :
    0 < distance fromPos toPos := by
  unfold distance
  by_contra hzero
  apply h
  apply Position.ext <;> omega

theorem startable_newMove {engine : GameEngine} {fromPos toPos : Position}
    (h : engine.MoveAccepted fromPos toPos) :
    engine.Startable (engine.newMove fromPos toPos) := by
  have hvalid := validated_of_validateMove h.valid
  have hdistance := distance_pos hvalid.ne
  refine ⟨h.not_busy, hvalid.inBounds_from,
    fun _ ↦ ⟨hvalid.inBounds_from, hvalid.inBounds_to, hvalid.ne⟩, rfl, ?_, rfl⟩
  simp only [newMove, GameConfig.kMoveDurationMs]
  omega

theorem startable_newJump {engine : GameEngine} {pos : Position} (h : engine.JumpAccepted pos) :
    engine.Startable (engine.newJump pos) := by
  refine ⟨h.not_busy, h.inBounds, fun htype ↦ ?_, rfl, ?_, rfl⟩
  · simp [newJump] at htype
  · simp [newJump, GameConfig.kJumpDurationMs]

theorem Lifecycle.start {engine : GameEngine} (h : engine.Lifecycle) {motion : Motion}
    (hmotion : engine.Startable motion) (event : GameEvent) :
    (engine.start motion event).Lifecycle where
  sources := by
    rw [activeMotions_start, List.map_append, List.nodup_append]
    refine ⟨h.sources, List.nodup_singleton _, ?_⟩
    intro source hsource other hother
    obtain ⟨active, hactive, rfl⟩ := List.mem_map.1 hsource
    obtain rfl : other = motion.source := by simpa using hother
    exact (engine.not_busy_iff _).1 hmotion.not_busy active hactive
  inBounds := forall_mem_start h.inBounds hmotion.inBounds
  onBoard := forall_mem_start h.onBoard hmotion.onBoard
  started := forall_mem_start h.started hmotion.started.le
  duration := forall_mem_start h.duration hmotion.duration
  ordered := by
    rw [activeMotions_start, List.pairwise_append]
    refine ⟨h.ordered, List.pairwise_singleton _ _, ?_⟩
    intro active hactive other hother
    obtain rfl : other = motion := by simpa using hother
    have hstarted := h.started active hactive
    have hid := h.ids active hactive
    simp only [motionLess, hmotion.started, hmotion.id]
    split
    · rename_i hne
      simp only [decide_eq_true_eq]
      omega
    · simpa using hid
  ids := by
    apply forall_mem_start
    · intro active hactive
      exact (h.ids active hactive).trans (Nat.lt_succ_self _)
    · exact hmotion.id ▸ Nat.lt_succ_self _
  unexpired := by
    apply forall_mem_start h.unexpired
    have hduration := hmotion.duration
    rw [isExpired_eq_false_iff, hmotion.started]
    omega

theorem Lifecycle.requestMove {engine : GameEngine} (h : engine.Lifecycle)
    (fromPos toPos : Position) : (engine.requestMove fromPos toPos).2.Lifecycle :=
  requestMove_induction (fun haccepted ↦ h.start (startable_newMove haccepted) _) h

/-! ## Arrivals in starting order -/

/-- The part of the invariant that the arrivals of one call rest on. -/
structure Orderly (engine : GameEngine) : Prop where
  ordered : engine.activeMotions.Pairwise fun first second ↦ motionLess first second = true
  onBoard : ∀ motion ∈ engine.activeMotions, motion.type = .move → motion.OnBoard engine.board

theorem Lifecycle.orderly {engine : GameEngine} (h : engine.Lifecycle) : engine.Orderly :=
  ⟨h.ordered, h.onBoard⟩

/-- The moves completing on the board are those of the list, already in starting order. -/
theorem Orderly.arrivals_eq {engine : GameEngine} (h : engine.Orderly) (ms : ℤ) :
    engine.arrivals ms = engine.completing ms := by
  apply List.Pairwise.insertionSort_eq
  refine (h.ordered.sublist List.filter_sublist).imp fun {first second} hless ↦ ?_
  simp only [motionLess] at hless ⊢
  split at hless
  · rename_i hne
    rw [if_pos (Ne.symm hne)]
    simp only [decide_eq_true_eq, decide_eq_false_iff_not] at hless ⊢
    omega
  · rename_i heq
    rw [if_neg (by simpa using (not_not.1 heq).symm)]
    simp only [decide_eq_true_eq, decide_eq_false_iff_not] at hless ⊢
    omega

theorem Lifecycle.arrivals_eq {engine : GameEngine} (h : engine.Lifecycle) (ms : ℤ) :
    engine.arrivals ms = engine.completing ms :=
  h.orderly.arrivals_eq ms

theorem Orderly.onBoard_completing {engine : GameEngine} (h : engine.Orderly) {ms : ℤ}
    {motion : Motion} (hmem : motion ∈ engine.completing ms) : motion.OnBoard engine.board :=
  h.onBoard motion (mem_completing.1 hmem).1 (mem_completing.1 hmem).2.1

theorem Lifecycle.onBoard_completing {engine : GameEngine} (h : engine.Lifecycle) {ms : ℤ}
    {motion : Motion} (hmem : motion ∈ engine.completing ms) : motion.OnBoard engine.board :=
  h.orderly.onBoard_completing hmem

/-- Every completing move is on the board that the arrivals start from. -/
theorem Orderly.onBoard_decreased {engine : GameEngine} (h : engine.Orderly) {ms : ℤ}
    {motion : Motion} (hmem : motion ∈ engine.completing ms) :
    motion.OnBoard (engine.arrivalStart ms).board :=
  (h.onBoard_completing hmem).congr (sameKinds_decreaseAllCooldowns engine.board ms).inBounds

theorem Lifecycle.onBoard_decreased {engine : GameEngine} (h : engine.Lifecycle) {ms : ℤ}
    {motion : Motion} (hmem : motion ∈ engine.completing ms) :
    motion.OnBoard (engine.arrivalStart ms).board :=
  h.orderly.onBoard_decreased hmem

theorem Orderly.inBounds_arrivalTick {engine : GameEngine} (h : engine.Orderly) (ms : ℤ)
    (pos : Position) : (engine.arrivalTick ms).board.inBounds pos = engine.board.inBounds pos := by
  rw [arrivalTick, h.arrivals_eq]
  calc
    _ = (engine.arrivalStart ms).board.inBounds pos :=
      inBounds_arrivals _ (fun motion hmem ↦ h.onBoard_decreased hmem) pos
    _ = engine.board.inBounds pos :=
      (sameKinds_decreaseAllCooldowns engine.board ms).inBounds pos

theorem Lifecycle.inBounds_arrivalTick {engine : GameEngine} (h : engine.Lifecycle) (ms : ℤ)
    (pos : Position) : (engine.arrivalTick ms).board.inBounds pos = engine.board.inBounds pos :=
  h.orderly.inBounds_arrivalTick ms pos

/-- Without premoves the active motions stay orderly, even when the clock is turned back. -/
theorem Orderly.advanceTime_of_none {engine : GameEngine} (h : engine.Orderly)
    (hpremoves : ∀ source, engine.premoves source = none) (ms : ℤ) :
    (engine.advanceTime ms).Orderly := by
  have hactive := activeMotions_advanceTime_of_none hpremoves ms
  have hbounds : ∀ pos, (engine.advanceTime ms).board.inBounds pos = engine.board.inBounds pos :=
    fun pos ↦ ((sameKinds_advanceTime engine ms).inBounds pos).trans (h.inBounds_arrivalTick ms pos)
  constructor
  · rw [hactive]
    exact h.ordered.sublist List.filter_sublist
  · intro motion hmem htype
    rw [hactive] at hmem
    exact (h.onBoard motion (List.mem_of_mem_filter hmem) htype).congr hbounds

theorem Lifecycle.inBounds_advanceTime {engine : GameEngine} (h : engine.Lifecycle) (ms : ℤ)
    (pos : Position) : (engine.advanceTime ms).board.inBounds pos = engine.board.inBounds pos :=
  ((sameKinds_advanceTime engine ms).inBounds pos).trans (h.inBounds_arrivalTick ms pos)

theorem Lifecycle.afterArrivals {engine : GameEngine} (h : engine.Lifecycle) (ms : ℕ) :
    (engine.afterArrivals ms).Lifecycle := by
  have hbounds : ∀ pos, (engine.afterArrivals ms).board.inBounds pos = engine.board.inBounds pos :=
    fun pos ↦ ((sameKinds_afterArrivals engine ms).inBounds pos).trans
      (h.inBounds_arrivalTick ms pos)
  have hmem : ∀ motion, motion ∈ (engine.afterArrivals ms).activeMotions →
      motion ∈ engine.activeMotions := by
    intro motion hmotion
    rw [activeMotions_afterArrivals] at hmotion
    exact List.mem_of_mem_filter hmotion
  have hsub := List.filter_sublist (l := engine.activeMotions)
    (p := fun motion ↦ !motion.isExpired (engine.elapsedMs + ms))
  rw [← activeMotions_afterArrivals] at hsub
  exact
    { sources := h.sources.sublist (hsub.map _)
      inBounds := fun motion hmotion ↦ (hbounds _).trans (h.inBounds motion (hmem _ hmotion))
      onBoard := fun motion hmotion htype ↦
        (h.onBoard motion (hmem _ hmotion) htype).congr hbounds
      started := by
        intro motion hmotion
        have hstarted := h.started motion (hmem _ hmotion)
        rw [elapsedMs_afterArrivals]
        omega
      duration := fun motion hmotion ↦ h.duration motion (hmem _ hmotion)
      ordered := h.ordered.sublist hsub
      ids := fun motion hmotion ↦ by
        rw [nextMotionId_afterArrivals]
        exact h.ids motion (hmem _ hmotion)
      unexpired := by
        intro motion hmotion
        rw [activeMotions_afterArrivals, List.mem_filter] at hmotion
        rw [elapsedMs_afterArrivals]
        simpa using hmotion.2 }

theorem Lifecycle.processPremoves {engine : GameEngine} (h : engine.Lifecycle)
    (completing : List Motion) : (engine.processPremovesAfterAdvance completing).Lifecycle :=
  processPremoves_induction
    (fun _ _ hengine ↦ hengine.congr rfl rfl rfl fun _ ↦ rfl)
    (fun _ fromPos toPos hengine ↦ hengine.requestMove fromPos toPos) h completing

theorem Lifecycle.advanceTime {engine : GameEngine} (h : engine.Lifecycle) (ms : ℕ) :
    (engine.advanceTime ms).Lifecycle := by
  rw [advanceTime_eq]
  have hpremoves := (h.afterArrivals ms).processPremoves (engine.completing ms)
  exact hpremoves.congr (by simp [activeMotions]) (by simp [elapsedMs]) (by simp)
    (sameKinds_applyCooldown _ _).inBounds

theorem Lifecycle.step {engine : GameEngine} (h : engine.Lifecycle) (op : Op) :
    (engine.step op).Lifecycle :=
  step_induction (fun _ _ haccepted ↦ h.start (startable_newMove haccepted) _)
    (fun _ haccepted ↦ h.start (startable_newJump haccepted) _)
    (fun _ _ _ ↦ h.congr rfl rfl rfl fun _ ↦ rfl)
    (fun ms ↦ h.advanceTime ms)
    (fun _ _ ↦ h.congr rfl rfl rfl fun _ ↦ rfl) h

/-- The lifecycle invariant holds in every reachable state. -/
theorem Reachable.lifecycle {engine : GameEngine} (h : Reachable engine) : engine.Lifecycle :=
  h.invariant (fun _ ⟨before, hbefore⟩ ↦ hbefore ▸ lifecycle_reset before)
    fun _ op hengine ↦ hengine.step op

/-! ## When a motion leaves the list -/

theorem elapsedMs_step (engine : GameEngine) (op : Op) :
    engine.elapsedMs ≤ (engine.step op).elapsedMs :=
  step_induction (P := fun later ↦ engine.elapsedMs ≤ later.elapsedMs)
    (fun _ _ _ ↦ le_rfl) (fun _ _ ↦ le_rfl) (fun _ _ _ ↦ le_rfl)
    (fun ms ↦ by
      rw [elapsedMs_advanceTime]
      omega)
    (fun _ _ ↦ le_rfl) le_rfl

/-- No operation drops a motion before its time. -/
theorem mem_activeMotions_step {engine : GameEngine} {motion : Motion}
    (hmem : motion ∈ engine.activeMotions) (op : Op)
    (hrunning : motion.isExpired (engine.step op).elapsedMs = false) :
    motion ∈ (engine.step op).activeMotions := by
  revert hrunning
  apply step_induction (P := fun later ↦ motion.isExpired later.elapsedMs = false →
    motion ∈ later.activeMotions)
  · exact fun _ _ _ _ ↦ List.mem_append_left _ hmem
  · exact fun _ _ _ ↦ List.mem_append_left _ hmem
  · exact fun _ _ _ _ ↦ hmem
  · intro ms hrunning
    obtain ⟨added, hactive⟩ := activeMotions_advanceTime engine ms
    rw [elapsedMs_advanceTime] at hrunning
    rw [hactive]
    exact List.mem_append_left _ (List.mem_filter.2 ⟨hmem, by simp [hrunning]⟩)
  · exact fun _ _ _ ↦ hmem
  · exact fun _ ↦ hmem

theorem elapsedMs_run (engine : GameEngine) (ops : List Op) :
    engine.elapsedMs ≤ (engine.run ops).elapsedMs := by
  induction ops generalizing engine with
  | nil => exact le_rfl
  | cons op ops ih =>
    calc
      engine.elapsedMs ≤ (engine.step op).elapsedMs := elapsedMs_step engine op
      _ ≤ ((engine.step op).run ops).elapsedMs := ih (engine.step op)

theorem mem_activeMotions_run {engine : GameEngine} {motion : Motion}
    (hmem : motion ∈ engine.activeMotions) (ops : List Op)
    (hrunning : motion.isExpired (engine.run ops).elapsedMs = false) :
    motion ∈ (engine.run ops).activeMotions := by
  induction ops generalizing engine with
  | nil => exact hmem
  | cons op ops ih =>
    refine ih (mem_activeMotions_step hmem op ?_) hrunning
    have hlater := elapsedMs_run (engine.step op) ops
    rw [isExpired_eq_false_iff] at hrunning ⊢
    exact hlater.trans_lt hrunning

/-- The lifecycle of motions: the invariant holds after every run from a reset, the moves that
complete in a call of `advanceTime` are listed in the order in which the arbiter sorts them, and
a motion once started is listed for exactly as long as its end has not come. -/
theorem motion_lifecycle (before : GameEngine) (ops : List Op) :
    (before.reset.run ops).Lifecycle ∧
      (∀ ms : ℕ, (before.reset.run ops).arrivals ms = (before.reset.run ops).completing ms) ∧
      ∀ motion ∈ (before.reset.run ops).activeMotions, ∀ later : List Op,
        motion ∈ ((before.reset.run ops).run later).activeMotions ↔
          ((before.reset.run ops).run later).elapsedMs <
            motion.startedAtMs + motion.durationMs := by
  have hreachable := reachable_run before ops
  refine ⟨hreachable.lifecycle, fun ms ↦ hreachable.lifecycle.arrivals_eq ms, ?_⟩
  intro motion hmem later
  rw [← isExpired_eq_false_iff]
  constructor
  · exact fun hactive ↦ (Reachable.lifecycle (hreachable.run later)).unexpired motion hactive
  · exact mem_activeMotions_run hmem later

end GameEngine

end KongFuChess.Engine
