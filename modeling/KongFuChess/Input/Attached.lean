import KongFuChess.Engine.Final
import KongFuChess.Engine.Premoves
import KongFuChess.Input.Session

/-!
# Premoves and the moves they wait for

A premove is stored under the source of a move in flight. Where only clicks queue premoves, every
stored premove belongs to the one move that is active from its key, and starts where that move ends.
The call of `advanceTime` that ends the move looks the premove up and drops it, so a move never
starts with a premove already stored for it.
-/

namespace KongFuChess.Input

open Model Realtime Rules Engine

/-- The moves that are active from a square. -/
def movesFrom (engine : GameEngine) (source : Position) : List Motion :=
  engine.activeMotions.filter fun motion ↦ motion.type = .move && motion.source = source

/-- Every premove belongs to the only move active from its key and starts where that move ends. -/
def PremovesAttached (engine : GameEngine) : Prop :=
  ∀ source premove, engine.premoves source = some premove →
    ∃ motion, movesFrom engine source = [motion] ∧ premove.fromPos = motion.destination

/-- Every premove of the later engine waits for a move that was active before and still is. -/
def Waits (engine later : GameEngine) : Prop :=
  ∀ source premove, later.premoves source = some premove →
    ∃ motion ∈ engine.activeMotions, motion ∈ later.activeMotions ∧ motion.type = .move ∧
      motion.source = source ∧ premove.fromPos = motion.destination

section Waits

variable {engine later : GameEngine}

theorem Waits.still (h : Waits engine later) : Waits later later := by
  intro source premove hpremove
  obtain ⟨motion, -, hmem, hmotion⟩ := h source premove hpremove
  exact ⟨motion, hmem, hmem, hmotion⟩

/-- As sources are distinct, the move a premove waits for is the only one from its key. -/
theorem Waits.attached (h : Waits later later) (hlife : later.Lifecycle) :
    PremovesAttached later := by
  intro source premove hpremove
  obtain ⟨motion, hmem, -, htype, hsource, hfrom⟩ := h source premove hpremove
  refine ⟨motion, ?_, hfrom⟩
  have honly : ∀ other ∈ later.activeMotions,
      (other.type = .move && other.source = source) = decide (other = motion) := by
    intro other hother
    by_cases heq : other = motion
    · subst heq
      simp [htype, hsource]
    · have hsource' : other.source ≠ source := fun hsame ↦
        heq (hlife.eq_of_source_eq hother hmem (hsame.trans hsource.symm))
      simp [heq, hsource']
  have hnodup : later.activeMotions.Nodup := hlife.sources.of_map _
  rw [movesFrom, List.filter_congr honly, List.filter_eq, List.count_eq_one_of_mem hnodup hmem,
    List.replicate_one]

/-- A request adds its motion, if any, to those that are active. -/
theorem Waits.of_start (h : Waits engine engine) (motion : Motion) (event : Events.GameEvent) :
    Waits engine (engine.start motion event) := by
  intro source premove hpremove
  obtain ⟨waited, hmem, -, hwaited⟩ := h source premove hpremove
  refine ⟨waited, hmem, ?_, hwaited⟩
  rw [GameEngine.activeMotions_start]
  exact List.mem_append_left _ hmem

theorem Waits.requestMove (h : Waits engine engine) (fromPos toPos : Position) :
    Waits engine (engine.requestMove fromPos toPos).2 := by
  rcases engine.requestMove_cases fromPos toPos with heq | ⟨-, heq⟩
  · rw [heq]
    exact h
  · rw [heq]
    exact h.of_start _ _

theorem Waits.requestJump (h : Waits engine engine) (pos : Position) :
    Waits engine (engine.requestJump pos).2 := by
  rcases engine.requestJump_cases pos with heq | ⟨-, heq⟩
  · rw [heq]
    exact h
  · rw [heq]
    exact h.of_start _ _

theorem exists_of_getActiveMoveDestination {source destination : Position}
    (h : engine.getActiveMoveDestination source = some destination) :
    ∃ motion ∈ engine.activeMotions, motion.type = .move ∧ motion.source = source ∧
      motion.destination = destination := by
  obtain ⟨motion, hfind, hdestination⟩ := Option.map_eq_some_iff.1 h
  have hmotion := List.find?_some hfind
  rw [Bool.and_eq_true, decide_eq_true_eq, decide_eq_true_eq] at hmotion
  exact ⟨motion, List.mem_of_find?_eq_some hfind, hmotion.1, hmotion.2, hdestination⟩

/-- A click queues a premove for a move that is active. -/
theorem Waits.queuePremove (h : Waits engine engine) {source destination : Position}
    (hqueued : QueuedFor engine source destination) (toPos : Position) :
    Waits engine (engine.queuePremove source destination toPos) := by
  intro key premove hpremove
  simp only [GameEngine.queuePremove] at hpremove
  split at hpremove
  · rename_i hkey
    obtain rfl := Option.some.inj hpremove
    obtain ⟨motion, hmem, htype, hsource, hdestination⟩ :=
      exists_of_getActiveMoveDestination hqueued.destination_eq
    exact ⟨motion, hmem, hmem, htype, hsource.trans hkey.symm, hdestination.symm⟩
  · exact h key premove hpremove

/-- The step for one completing move drops the premove stored under its source and no other. -/
theorem premoves_processPremove (engine : GameEngine) {motion : Motion}
    (htype : motion.type = .move) :
    (engine.processPremoveAfterAdvance motion).premoves =
      (engine.clearPremoveAt motion.source).premoves := by
  rcases engine.processPremoveAfterAdvance_cases htype with ⟨premove, -, -, heq⟩ | ⟨-, heq⟩
  · rw [heq, GameEngine.premoves_start]
  · rw [heq]

theorem premoves_foldl {completing : List Motion}
    (htype : ∀ motion ∈ completing, motion.type = .move) (engine : GameEngine) {source : Position} {premove : Premove}
    (h : (completing.foldl GameEngine.processPremoveAfterAdvance engine).premoves source =
      some premove) :
    (∀ motion ∈ completing, motion.source ≠ source) ∧ engine.premoves source = some premove := by
  induction completing generalizing engine with
  | nil => exact ⟨List.forall_mem_nil _, h⟩
  | cons motion rest ih =>
    obtain ⟨hrest, hpremove⟩ :=
      ih (fun other hother ↦ htype other (List.mem_cons_of_mem _ hother)) _ h
    rw [premoves_processPremove engine (htype motion (List.mem_cons_self ..))] at hpremove
    simp only [GameEngine.clearPremoveAt] at hpremove
    split at hpremove
    · exact absurd hpremove.symm (Option.some_ne_none premove)
    · rename_i hother
      exact ⟨List.forall_mem_cons.2 ⟨fun heq ↦ hother heq.symm, hrest⟩, hpremove⟩

/-- A premove that is still stored after a call belongs to no move that has ended in it. -/
theorem premoves_advanceTime {ms : ℤ} (hover : (engine.advanceTime ms).isGameOver = false)
    {source : Position} {premove : Premove}
    (h : (engine.advanceTime ms).premoves source = some premove) :
    (∀ motion ∈ engine.completing ms, motion.source ≠ source) ∧
      engine.premoves source = some premove := by
  have hover' : (engine.afterArrivals ms).isGameOver = false := by
    rw [GameEngine.isGameOver_afterArrivals, ← GameEngine.isGameOver_advanceTime]
    exact hover
  rw [GameEngine.advanceTime_eq, GameEngine.premoves_applyCooldown,
    GameEngine.processPremovesAfterAdvance, if_neg (by simp [hover'])] at h
  have hfold := premoves_foldl (fun motion hmotion ↦ (GameEngine.mem_completing.1 hmotion).2.1) _ h
  rw [GameEngine.premoves_afterArrivals] at hfold
  exact hfold

theorem Waits.advanceTime {ms : ℤ} (h : Waits engine engine)
    (hover : (engine.advanceTime ms).isGameOver = false) :
    Waits engine (engine.advanceTime ms) := by
  intro source premove hpremove
  obtain ⟨hkept, hpremove⟩ := premoves_advanceTime hover hpremove
  obtain ⟨motion, hmem, -, htype, hsource, hfrom⟩ := h source premove hpremove
  refine ⟨motion, hmem, ?_, htype, hsource, hfrom⟩
  have hrunning : motion.isExpired (engine.elapsedMs + ms) = false := by
    by_contra hexpired
    rw [Bool.not_eq_false] at hexpired
    exact hkept motion (GameEngine.mem_completing.2 ⟨hmem, htype, hexpired⟩) hsource
  obtain ⟨added, hactive⟩ := engine.activeMotions_advanceTime ms
  rw [hactive]
  exact List.mem_append_left _ (List.mem_filter.2 ⟨hmem, by simp [hrunning]⟩)

end Waits

/-! ## Sessions -/

/-- Nothing but a click queues premoves. -/
def QueuesByClick : Op → Prop
  | .engine (.queuePremove ..) => False
  | _ => True

instance : DecidablePred QueuesByClick
  | .click .. | .jump .. | .setDispatch _ => .isTrue trivial
  | .engine (.requestMove ..) | .engine (.requestJump _) => .isTrue trivial
  | .engine (.advanceTime _) | .engine (.remoteGameEnded _) => .isTrue trivial
  | .engine (.queuePremove ..) => .isFalse id

namespace Session

theorem over_step {session : Session} (hover : session.engine.isGameOver = true) (op : Op) :
    (session.step op).engine.isGameOver = true := by
  obtain ⟨ops, heq⟩ := session.exists_engineOps op
  rw [heq]
  exact Transition.run_invariant GameEngine.step (I := fun later ↦ later.isGameOver = true)
    (fun _ op hlater ↦ (GameEngine.over_step hlater op).1) hover ops

/-- One step: a premove stored after it waits for a move that was active before it and still is. -/
theorem waits_step {session : Session} {op : Op} (hop : QueuesByClick op)
    (h : session.engine.isGameOver = false → Waits session.engine session.engine)
    (hover : (session.step op).engine.isGameOver = false) :
    Waits session.engine (session.step op).engine := by
  have hwaits := h (by
    rw [← Bool.not_eq_true]
    intro hbefore
    exact Bool.false_ne_true (hover.symm.trans (over_step hbefore op)))
  cases op with
  | click x y playerColor =>
    exact handleClick_induction session.controller session.engine x y playerColor hwaits
      hwaits.requestMove fun source destination toPos hqueued ↦ hwaits.queuePremove hqueued toPos
  | jump x y playerColor =>
    rw [engine_step_jump]
    rcases handleJump_cases session.controller session.engine x y playerColor with heq | heq
    · rw [heq]
      exact hwaits
    · rw [heq]
      exact hwaits.requestJump _
  | setDispatch dispatch => exact hwaits
  | engine op =>
    cases op with
    | requestMove fromPos toPos => exact hwaits.requestMove fromPos toPos
    | requestJump pos => exact hwaits.requestJump pos
    | queuePremove => exact hop.elim
    | advanceTime ms => exact hwaits.advanceTime hover
    | remoteGameEnded winner =>
      change (GameEngine.step _ _).isGameOver = false at hover
      rw [GameEngine.step_remoteGameEnded] at hover
      change Waits _ (GameEngine.step _ _)
      rw [GameEngine.step_remoteGameEnded]
      split at hover
      · rename_i hbefore
        rw [if_pos hbefore]
        exact hwaits
      · exact absurd hover.symm Bool.false_ne_true

theorem waits_run (before : GameEngine) {ops : List Op} (hops : ∀ op ∈ ops, QueuesByClick op)
    (hover : ((start before).run ops).engine.isGameOver = false) :
    Waits ((start before).run ops).engine ((start before).run ops).engine := by
  refine Transition.run_induction
    (P := fun _ (session : Session) ↦ session.engine.isGameOver = false →
      Waits session.engine session.engine) ?_ ?_ (List.append_nil ops).symm hover
  · intro _ source premove hpremove
    exact absurd hpremove.symm (Option.some_ne_none premove)
  · intro past op future hsplit hpast hover
    have hmem : op ∈ ops := hsplit ▸ List.mem_append_right _ (List.mem_cons_self ..)
    exact (waits_step (hops op hmem) hpast hover).still

/-- Where only clicks queue premoves and the game is not over, every premove belongs to the one move
active from its key and starts where that move ends; the call that ends a move leaves no premove
under its source; and a motion never starts with a premove stored under its source. -/
theorem premoves_attached (before : GameEngine) (ops : List Op)
    (hops : ∀ op ∈ ops, QueuesByClick op)
    (hover : ((start before).run ops).engine.isGameOver = false) :
    PremovesAttached ((start before).run ops).engine ∧
    (∀ ms : ℕ, (((start before).run ops).engine.advanceTime ms).isGameOver = false →
      ∀ motion ∈ ((start before).run ops).engine.completing ms,
        (((start before).run ops).engine.advanceTime ms).premoves motion.source = none) ∧
    ∀ op, QueuesByClick op → (((start before).run ops).step op).engine.isGameOver = false →
      ∀ motion ∈ (((start before).run ops).step op).engine.activeMotions,
        motion ∉ ((start before).run ops).engine.activeMotions →
          (((start before).run ops).step op).engine.premoves motion.source = none := by
  have hwaits := waits_run before hops hover
  refine ⟨hwaits.attached (lifecycle_engine before ops), ?_, ?_⟩
  · intro ms hlater motion hmotion
    rw [Option.eq_none_iff_forall_ne_some]
    intro premove hpremove
    exact (premoves_advanceTime hlater hpremove).1 motion hmotion rfl
  · intro op hop hlater motion hmem hnew
    rw [Option.eq_none_iff_forall_ne_some]
    intro premove hpremove
    obtain ⟨waited, hbefore, hafter, -, hsource, -⟩ :=
      waits_step hop (fun _ ↦ hwaits) hlater motion.source premove hpremove
    have hlife : (((start before).run ops).step op).engine.Lifecycle := by
      have hrun := lifecycle_engine before (ops ++ [op])
      rwa [run, Transition.run_append] at hrun
    rw [hlife.eq_of_source_eq hafter hmem hsource] at hbefore
    exact hnew hbefore

/-- A rook in the corner of an empty row. -/
def rookRowBoard : Board where
  cells := [[.of .rook .white, .empty, .empty, .empty]]
  rectangular := by decide

/-- The rook is sent to the end of the row, and from there one square back. -/
def premoveClicks : List Op :=
  [.click 61 64 none, .click 361 64 none, .click 61 64 none, .click 261 64 none]

/-- The premove waits for the rook's move to end. -/
theorem premoves_attached_rook :
    ((start { board := rookRowBoard }).run premoveClicks).engine.premoves ⟨0, 0⟩ =
        some ⟨⟨0, 3⟩, ⟨0, 2⟩⟩ ∧
      PremovesAttached ((start { board := rookRowBoard }).run premoveClicks).engine :=
  ⟨by decide, (premoves_attached { board := rookRowBoard } premoveClicks (by decide) (by decide)).1⟩

end Session

end KongFuChess.Input
