import KongFuChess.Engine.Commute
import KongFuChess.Engine.Landings

/-!
# Who rests after a call

After a call the engine puts the piece on the destination of every completing move on the move
cooldown, if nothing keeps the square busy; it does not ask what became of the move. A piece that
has landed and stays rests rightly. A bystander rests when a move to its square was blocked, was
captured in the air or found its source without its piece, while the bystander stayed where it was.
Whether this can happen is decided by what the call finds: the board, the running motions and the
cooldowns.
-/

namespace KongFuChess.Engine

open Model Realtime Rules Events

/-! ## Writing pieces one after another -/

section UpdateEach

variable (update : Piece → Piece) {selected : Motion → Bool} {square : Motion → Position}

theorem cell_updateAt (board : Board) (target pos : Position) :
    (updateAt update board target).cell pos =
      if target = pos ∧ (board.cell pos).isEmpty = false then update (board.cell pos)
      else board.cell pos := by
  by_cases heq : target = pos
  swap
  · rw [if_neg fun h ↦ heq h.1, updateAt]
    split
    · exact Board.cell_setCell_ne _ _ (Ne.symm heq)
    · rfl
  subst heq
  rw [updateAt]
  by_cases hfull : (board.cell target).isEmpty = false
  · have hbounds : board.inBounds target = true := by
      by_contra hout
      rw [Board.cell_of_not_inBounds board (by simpa using hout)] at hfull
      exact Bool.false_ne_true hfull.symm
    rw [if_pos (by simp [hbounds, hfull]), if_pos ⟨rfl, hfull⟩, Board.cell_setCell_self _ _ hbounds]
  · rw [if_neg (by simp [hfull]), if_neg fun h ↦ hfull h.2]

/-- What an update does not change of a piece is the same after all of them. -/
theorem apply_cell_foldl_updateEach {α : Type*} (field : Piece → α)
    (hfield : ∀ piece, field (update piece) = field piece) (motions : List Motion) (board : Board)
    (pos : Position) :
    field ((motions.foldl (updateEach update selected square) board).cell pos) =
      field (board.cell pos) := by
  induction motions generalizing board with
  | nil => rfl
  | cons motion rest ih =>
    rw [List.foldl_cons, ih, updateEach]
    split
    · rw [cell_updateAt]
      split
      · exact hfield _
      · rfl
    · rfl

/-- The cells after updates that say the same when they are repeated. -/
theorem cell_foldl_updateEach (hrepeat : ∀ piece, update (update piece) = update piece)
    (hempty : ∀ piece, (update piece).isEmpty = piece.isEmpty) (motions : List Motion)
    (board : Board) (pos : Position) :
    (motions.foldl (updateEach update selected square) board).cell pos =
      if (∃ motion ∈ motions, selected motion = true ∧ square motion = pos) ∧
          (board.cell pos).isEmpty = false then update (board.cell pos)
      else board.cell pos := by
  induction motions generalizing board with
  | nil => simp
  | cons motion rest ih =>
    have hhead : (updateEach update selected square board motion).cell pos =
        if (selected motion = true ∧ square motion = pos) ∧ (board.cell pos).isEmpty = false then
          update (board.cell pos)
        else board.cell pos := by
      rw [updateEach]
      by_cases hselected : selected motion = true
      · rw [if_pos hselected, cell_updateAt]
        simp only [hselected, true_and]
      · rw [if_neg hselected, if_neg fun h ↦ hselected h.1.1]
    simp only [List.foldl_cons, ih, hhead, List.exists_mem_cons_iff]
    by_cases hmotion : (selected motion = true ∧ square motion = pos) ∧
        (board.cell pos).isEmpty = false
    · simp [hmotion, hrepeat, hempty]
    · rw [if_neg hmotion]
      refine if_congr ?_ rfl rfl
      rw [or_and_right]
      exact (or_iff_right hmotion).symm

end UpdateEach

namespace GameEngine

/-- The cooldown of a piece after the arrivals of a call. -/
theorem moveCooldown_applyCooldown (engine : GameEngine) {completing : List Motion}
    (hmoves : ∀ motion ∈ completing, motion.type = .move) (pos : Position) :
    ((engine.applyCooldownAfterArrivals completing).board.cell pos).moveCooldownRemainingMs =
      if (∃ motion ∈ completing, motion.destination = pos) ∧ engine.isBusyAt pos = false ∧
          (engine.board.cell pos).isEmpty = false then GameConfig.kMoveCooldownMs
      else (engine.board.cell pos).moveCooldownRemainingMs := by
  rw [applyCooldown_eq_updateEach,
    cell_foldl_updateEach (fun piece ↦ piece.setMoveCooldown GameConfig.kMoveCooldownMs)
      (fun _ ↦ rfl) fun _ ↦ rfl]
  have hselected : (∃ motion ∈ completing,
      (motion.type = .move && !engine.isBusyAt motion.destination) = true ∧
        motion.destination = pos) ↔
      (∃ motion ∈ completing, motion.destination = pos) ∧ engine.isBusyAt pos = false := by
    constructor
    · rintro ⟨motion, hmem, hidle, rfl⟩
      simp only [Bool.and_eq_true, Bool.not_eq_true'] at hidle
      exact ⟨⟨motion, hmem, rfl⟩, hidle.2⟩
    · rintro ⟨⟨motion, hmem, rfl⟩, hidle⟩
      exact ⟨motion, hmem, by simp [hmoves motion hmem, hidle], rfl⟩
  rw [if_congr (and_congr_left fun _ ↦ hselected) rfl rfl]
  simp only [and_assoc]
  split <;> rfl

theorem moveCooldown_landedPiece (board : Board) (motion : Motion) :
    (landedPiece board motion).moveCooldownRemainingMs =
      (board.cell motion.source).moveCooldownRemainingMs := by
  simp only [landedPiece]
  split
  · rfl
  · split <;> rfl

variable {engine : GameEngine} {ms : ℤ}

/-- The piece that the call found on the origin of a square carries its cooldown through the
arrivals to that square. -/
theorem Lifecycle.moveCooldown_arrivalTick (h : engine.Lifecycle) {pos : Position}
    (hfull : ((engine.arrivalTick ms).board.cell pos).isEmpty = false) :
    ((engine.arrivalStart ms).board.cell ((engine.occupantsAfter ms).origin pos)).isEmpty = false ∧
      ((engine.arrivalTick ms).board.cell pos).moveCooldownRemainingMs =
        ((engine.arrivalStart ms).board.cell
          ((engine.occupantsAfter ms).origin pos)).moveCooldownRemainingMs := by
  refine h.pieces_induction (I := fun _ origin piece ↦
    ((engine.arrivalStart ms).board.cell origin).isEmpty = false ∧
      piece.moveCooldownRemainingMs =
        ((engine.arrivalStart ms).board.cell origin).moveCooldownRemainingMs)
    (fun _ hstart ↦ ⟨hstart, rfl⟩) (fun _ _ _ _ hpast ↦ hpast) ?_ hfull
  intro past motion future _ _ hmover
  rw [moveCooldown_landedPiece]
  exact hmover

theorem moveCooldown_afterArrivals (engine : GameEngine) (ms : ℤ) (pos : Position) :
    ((engine.afterArrivals ms).board.cell pos).moveCooldownRemainingMs =
      ((engine.arrivalTick ms).board.cell pos).moveCooldownRemainingMs := by
  rw [board_afterArrivals_eq_foldl]
  exact apply_cell_foldl_updateEach (fun piece ↦ piece.setJumpCooldown GameConfig.kJumpCooldownMs)
    (fun piece ↦ piece.moveCooldownRemainingMs) (fun _ ↦ rfl) _ _ _

/-- The waiting that a call brings does not lengthen a cooldown. -/
theorem moveCooldown_arrivalStart_le {pos : Position} (hms : 0 ≤ ms)
    (hrest : 0 ≤ (engine.board.cell pos).moveCooldownRemainingMs) :
    ((engine.arrivalStart ms).board.cell pos).moveCooldownRemainingMs ≤
      (engine.board.cell pos).moveCooldownRemainingMs := by
  rw [arrivalStart, cell_decreaseAllCooldowns]
  split
  · simp only [Piece.decreaseCooldown]
    split <;> omega
  · exact hrest

/-- Where nothing leaves and nothing lands, the call ends with the piece that it found. -/
theorem Lifecycle.origin_of_unarrived (h : engine.Lifecycle) {pos : Position}
    (hunvacated : engine.Unvacated ms (engine.completing ms) pos)
    (harrived : pos ∉ (engine.arrivalTick ms).arrivedThisTick) :
    (engine.occupantsAfter ms).origin pos = pos := by
  rw [occupantsAfter, h.arrivals_eq]
  exact ((engine.atCall.sameAt_occupancyThrough h ms).2 pos hunvacated harrived).1

/-! ## Resting rightly -/

/-- A piece that rests longer after the call than before has landed in the call and stays. -/
def CooldownsEarned (engine : GameEngine) (ms : ℕ) : Prop :=
  ∀ pos, ((engine.advanceTime ms).board.cell pos).isEmpty = false →
    (engine.board.cell ((engine.occupantsAfter ms).origin pos)).moveCooldownRemainingMs <
        ((engine.advanceTime ms).board.cell pos).moveCooldownRemainingMs →
      ∃ motion ∈ engine.completing ms, motion.destination = pos ∧ engine.Stays ms motion

/-- The piece of the move stands on its source and no enemy may take it there before its turn, and
on its destination no friend stands and nobody is airborne. -/
structure Unhindered (engine : GameEngine) (ms : ℤ) (motion : Motion) : Prop where
  valid : motion.Valid engine.board
  spared : ∀ captor ∈ engine.completing ms, captor.destination = motion.source →
    motionLess captor motion = true → engine.MayLand ms captor →
      captor.pieceColor = motion.pieceColor
  unfriendly : (engine.board.cell motion.destination).isFriendly motion.pieceColor = false
  grounded : isJumpActiveAt engine.activeMotions motion.destination = false

instance (engine : GameEngine) (ms : ℤ) (motion : Motion) :
    Decidable (engine.Unhindered ms motion) :=
  decidable_of_iff (motion.Valid engine.board ∧
      (∀ captor ∈ engine.completing ms, captor.destination = motion.source →
        motionLess captor motion = true → engine.MayLand ms captor →
          captor.pieceColor = motion.pieceColor) ∧
      (engine.board.cell motion.destination).isFriendly motion.pieceColor = false ∧
      isJumpActiveAt engine.activeMotions motion.destination = false)
    ⟨fun ⟨valid, spared, unfriendly, grounded⟩ ↦ ⟨valid, spared, unfriendly, grounded⟩,
      fun h ↦ ⟨h.valid, h.spared, h.unfriendly, h.grounded⟩⟩

/-- The piece of the move stands on its source, no friend stands on its destination, and none may
come there before its turn. -/
structure LeavesSource (engine : GameEngine) (ms : ℤ) (motion : Motion) : Prop where
  valid : motion.Valid engine.board
  unfriendly : (engine.board.cell motion.destination).isFriendly motion.pieceColor = false
  unforestalled : ∀ friend ∈ engine.completing ms, friend.destination = motion.destination →
    motionLess friend motion = true → engine.MayLand ms friend →
      friend.pieceColor ≠ motion.pieceColor

instance (engine : GameEngine) (ms : ℤ) (motion : Motion) :
    Decidable (engine.LeavesSource ms motion) :=
  decidable_of_iff (motion.Valid engine.board ∧
      (engine.board.cell motion.destination).isFriendly motion.pieceColor = false ∧
      ∀ friend ∈ engine.completing ms, friend.destination = motion.destination →
        motionLess friend motion = true → engine.MayLand ms friend →
          friend.pieceColor ≠ motion.pieceColor)
    ⟨fun ⟨valid, unfriendly, unforestalled⟩ ↦ ⟨valid, unfriendly, unforestalled⟩,
      fun h ↦ ⟨h.valid, h.unfriendly, h.unforestalled⟩⟩

/-- A piece stands on the destination of the move and does not rest for the full time yet, no move
that completes there is unhindered, no completing move takes it away for certain, and no motion
keeps it busy beyond the call. -/
structure RestsBystander (engine : GameEngine) (ms : ℤ) (motion : Motion) : Prop where
  occupied : (engine.board.cell motion.destination).isEmpty = false
  hindered : ∀ other ∈ engine.completing ms, other.destination = motion.destination →
    ¬ engine.Unhindered ms other
  standing : ∀ leaver ∈ engine.completing ms, leaver.source = motion.destination →
    ¬ engine.LeavesSource ms leaver
  idle : ∀ running ∈ engine.activeMotions, running.source = motion.destination →
    running.isExpired (engine.elapsedMs + ms) = true
  rested : (engine.board.cell motion.destination).moveCooldownRemainingMs <
    GameConfig.kMoveCooldownMs

instance (engine : GameEngine) (ms : ℤ) (motion : Motion) :
    Decidable (engine.RestsBystander ms motion) :=
  decidable_of_iff ((engine.board.cell motion.destination).isEmpty = false ∧
      (∀ other ∈ engine.completing ms, other.destination = motion.destination →
        ¬ engine.Unhindered ms other) ∧
      (∀ leaver ∈ engine.completing ms, leaver.source = motion.destination →
        ¬ engine.LeavesSource ms leaver) ∧
      (∀ running ∈ engine.activeMotions, running.source = motion.destination →
        running.isExpired (engine.elapsedMs + ms) = true) ∧
      (engine.board.cell motion.destination).moveCooldownRemainingMs < GameConfig.kMoveCooldownMs)
    ⟨fun ⟨occupied, hindered, standing, idle, rested⟩ ↦
        ⟨occupied, hindered, standing, idle, rested⟩,
      fun h ↦ ⟨h.occupied, h.hindered, h.standing, h.idle, h.rested⟩⟩

/-- No completing move puts a bystander on the move cooldown. -/
def NoBystanderRests (engine : GameEngine) (ms : ℕ) : Prop :=
  ∀ motion ∈ engine.completing ms, ¬ engine.RestsBystander ms motion

instance (engine : GameEngine) (ms : ℕ) : Decidable (engine.NoBystanderRests ms) :=
  inferInstanceAs (Decidable (∀ motion ∈ engine.completing ms, _))

/-- The cooldowns after a call: a piece to whose square a move completed rests for the full time
unless it is busy, and the others have carried theirs. -/
theorem Lifecycle.moveCooldown_advanceTime (h : engine.Lifecycle) (ms : ℕ) {pos : Position}
    (hfull : ((engine.advanceTime ms).board.cell pos).isEmpty = false) :
    ((engine.advanceTime ms).board.cell pos).moveCooldownRemainingMs =
      if (∃ motion ∈ engine.completing ms, motion.destination = pos) ∧
          (engine.advanceTime ms).isBusyAt pos = false then GameConfig.kMoveCooldownMs
      else ((engine.arrivalStart ms).board.cell
        ((engine.occupantsAfter ms).origin pos)).moveCooldownRemainingMs := by
  rw [(engine.sameKinds_advanceTime ms).isEmpty] at hfull
  have hafter := (engine.sameKinds_afterArrivals ms).isEmpty pos
  have hbusy : (engine.advanceTime ms).isBusyAt pos =
      ((engine.afterArrivals ms).processPremovesAfterAdvance (engine.completing ms)).isBusyAt
        pos := by
    rw [advanceTime_eq]
    simp only [isBusyAt, activeMotions, arbiter_applyCooldown]
  rw [hbusy, advanceTime_eq, moveCooldown_applyCooldown _ fun _ hmem ↦ (mem_completing.1 hmem).2.1,
    board_processPremoves, hafter, hfull, moveCooldown_afterArrivals,
    (h.moveCooldown_arrivalTick hfull).2]
  simp only [and_true]

/-- No piece of the board has a negative move cooldown. -/
def CooldownsNonneg (board : Board) : Prop :=
  ∀ pos, (board.cell pos).isEmpty = false → 0 ≤ (board.cell pos).moveCooldownRemainingMs

theorem cooldownsNonneg_of_forall {board : Board}
    (h : ∀ row ∈ board.cells, ∀ piece ∈ row, 0 ≤ piece.moveCooldownRemainingMs) :
    CooldownsNonneg board :=
  fun pos _ ↦ Grid.getD_of_forall (p := fun piece : Piece ↦ 0 ≤ piece.moveCooldownRemainingMs) board
    h le_rfl pos.row pos.col

theorem Lifecycle.cooldownsNonneg_step (h : engine.Lifecycle) (op : Op)
    (hrest : CooldownsNonneg engine.board) : CooldownsNonneg (engine.step op).board := by
  by_cases hadvance : ∃ ms, op = .advanceTime ms
  · obtain ⟨ms, rfl⟩ := hadvance
    intro pos hfull
    rw [step_advanceTime] at hfull ⊢
    rw [h.moveCooldown_advanceTime ms hfull]
    split
    · decide
    · rw [arrivalStart, cell_decreaseAllCooldowns]
      split
      · simp only [Piece.decreaseCooldown]
        split <;> omega
      · exact le_rfl
  · rw [engine.board_step fun ms heq ↦ hadvance ⟨ms, heq⟩]
    exact hrest

/-- Where the occupant of its destination stays, an unhindered move lands. -/
theorem Lifecycle.landed_of_unhindered (h : engine.Lifecycle) (hoccupied : engine.Occupied)
    (hair : engine.Airborne) {motion : Motion} (hmem : motion ∈ engine.completing ms)
    (hunhindered : engine.Unhindered ms motion)
    (hunvacated : engine.Unvacated ms (engine.completing ms) motion.destination)
    (harrived : motion.destination ∉ (engine.arrivalTick ms).arrivedThisTick) :
    engine.result ms motion = .landed := by
  obtain ⟨past, future, hsplit⟩ := List.append_of_mem hmem
  have hstart := engine.sameKinds_arrivalStart ms
  have hpast : ∀ other ∈ past, other ∈ engine.completing ms := fun other ↦
    mem_completing_of_past hsplit
  have hearlier : motion.destination ∉ (engine.turn ms motion).arrivedThisTick :=
    fun hreached ↦ harrived (h.mem_arrived_of_turn hsplit hreached)
  refine landed_of_unopposed ?_ ?_ hunhindered.grounded hearlier
  · rw [h.valid_turn_iff hmem]
    · exact hunhindered.valid
    intro hreached
    obtain ⟨captor, hcaptor, hlanded, hsquare, hcell, -⟩ := (h.frame_turn hsplit).captured _
      (h.unvacated hsplit (mem_completing.1 hmem).1 (h.notMem_past hsplit)) hreached
    have henemy := (enemy_of_landed hlanded (by
      rw [hsquare, hcell, hstart.isEmpty]
      exact hunhindered.valid.not_isEmpty)).1.2
    rw [hsquare, hcell, hstart.color, hunhindered.valid.color,
      hunhindered.spared captor (hpast captor hcaptor) hsquare
        (h.motionLess_of_split hsplit hcaptor)
        (h.mayLand hoccupied hair (hpast captor hcaptor) hlanded)] at henemy
    exact Color.ne_opposite _ henemy
  · rw [(h.frame_turn hsplit).untouched _ (hunvacated.mono hpast) hearlier,
      Piece.isFriendly_congr (hstart.kind _)]
    exact hunhindered.unfriendly

/-- A move whose piece leaves for certain is neither stale nor blocked, if nothing arrives on its
source. -/
theorem Lifecycle.resolved_of_leavesSource (h : engine.Lifecycle) (hoccupied : engine.Occupied)
    (hair : engine.Airborne) {leaver : Motion} (hmem : leaver ∈ engine.completing ms)
    (hleaves : engine.LeavesSource ms leaver)
    (harrived : leaver.source ∉ (engine.arrivalTick ms).arrivedThisTick) :
    ¬ (engine.result ms leaver = .stale ∨ engine.result ms leaver = .blocked) := by
  obtain ⟨past, future, hsplit⟩ := List.append_of_mem hmem
  have hpast : ∀ other ∈ past, other ∈ engine.completing ms := fun other ↦
    mem_completing_of_past hsplit
  have hspec := engine.result_spec ms leaver
  rintro (hresult | hresult)
  · rw [hresult] at hspec
    refine hspec ((h.valid_turn_iff hmem ?_).2 hleaves.valid)
    exact fun hreached ↦ harrived (h.mem_arrived_of_turn hsplit hreached)
  · rw [hresult] at hspec
    obtain ⟨hfull, hcolor⟩ := (Piece.isFriendly_iff _ _).1 hspec.2
    by_cases hreached : leaver.destination ∈ (engine.turn ms leaver).arrivedThisTick
    · rcases (h.frame_turn hsplit).arrived _ hreached with hempty |
        ⟨friend, hfriend, hlanded, hsquare, his⟩
      · rw [hempty] at hfull
        exact Bool.true_eq_false.mp hfull
      · exact hleaves.unforestalled friend (hpast friend hfriend) hsquare
          (h.motionLess_of_split hsplit hfriend)
          (h.mayLand hoccupied hair (hpast friend hfriend) hlanded) (his.2.2.symm.trans hcolor)
    · rcases (h.frame_turn hsplit).unarrived _ hreached with hcell | hempty
      · have hfriendly := hspec.2
        rw [hcell, Piece.isFriendly_congr ((engine.sameKinds_arrivalStart ms).kind _),
          hleaves.unfriendly] at hfriendly
        exact Bool.false_ne_true hfriendly
      · rw [hempty] at hfull
        exact Bool.true_eq_false.mp hfull

theorem Lifecycle.cooldownsEarned (h : engine.Lifecycle) (hoccupied : engine.Occupied)
    (hair : engine.Airborne) {ms : ℕ} (hrest : CooldownsNonneg engine.board)
    (hnone : engine.NoBystanderRests ms) : engine.CooldownsEarned ms := by
  intro pos hfull hlonger
  have hfull' : ((engine.arrivalTick ms).board.cell pos).isEmpty = false :=
    ((engine.sameKinds_advanceTime ms).isEmpty pos).symm.trans hfull
  by_cases harrived : pos ∈ (engine.arrivalTick ms).arrivedThisTick
  · exact h.exists_stays harrived hfull'
  exfalso
  have hunvacated := h.unvacated_of_unarrived harrived hfull'
  have horigin := h.origin_of_unarrived hunvacated harrived
  have hstart : (engine.board.cell pos).isEmpty = false := by
    rw [← Piece.isEmpty_congr (h.kind_of_untouched hunvacated harrived)]
    exact hfull
  rw [h.moveCooldown_advanceTime ms hfull, horigin] at hlonger
  split at hlonger
  · rename_i hrests
    obtain ⟨⟨motion, hmem, rfl⟩, hidle⟩ := hrests
    refine hnone motion hmem
      { occupied := hstart
        hindered := ?_
        standing := ?_
        idle := ?_
        rested := hlonger }
    · intro other hother hsquare hunhindered
      rw [← hsquare] at hunvacated harrived
      have hlanded := h.landed_of_unhindered hoccupied hair hother hunhindered hunvacated harrived
      exact harrived (((h.mem_arrived ms).2 _).2 ⟨other, hother, hlanded, rfl⟩)
    · intro leaver hleaver hsource hleaves
      rw [← hsource] at harrived
      exact h.resolved_of_leavesSource hoccupied hair hleaver hleaves harrived
        (hunvacated leaver hleaver hsource)
    · intro running hrunning hsource
      rw [← Bool.not_eq_false]
      intro houtlasts
      rw [← Bool.not_eq_true, h.isBusyAt_advanceTime_iff] at hidle
      exact hidle (.inl ⟨running, hrunning, hsource, houtlasts⟩)
  · exact absurd (moveCooldown_arrivalStart_le (Int.natCast_nonneg ms) (hrest pos hstart))
      (not_le_of_gt hlonger)

/-- A move that lands on a piece which stays until then has not been hindered, if no completing
move goes to its source. -/
theorem Lifecycle.unhindered_of_landed (h : engine.Lifecycle)
    (hunreached : engine.SourcesUnreached ms) {motion : Motion}
    (hmem : motion ∈ engine.completing ms) (hresult : engine.result ms motion = .landed)
    (hunvacated : engine.Unvacated ms (engine.completing ms) motion.destination)
    (hfull : (engine.board.cell motion.destination).isEmpty = false) :
    engine.Unhindered ms motion := by
  obtain ⟨past, future, hsplit⟩ := List.append_of_mem hmem
  have hstart := engine.sameKinds_arrivalStart ms
  have hframe := h.frame_turn hsplit
  have hbefore : engine.Unvacated ms past motion.destination :=
    hunvacated.mono fun other ↦ mem_completing_of_past hsplit
  have hoccupied : ((engine.turn ms motion).board.cell motion.destination).isEmpty = false := by
    apply hframe.occupied hbefore
    rw [hstart.isEmpty]
    exact hfull
  obtain ⟨henemy, harrived⟩ := enemy_of_landed hresult hoccupied
  have hspec := engine.result_spec ms motion
  rw [hresult] at hspec
  refine
    { valid := ?_
      spared := fun captor hcaptor hsquare ↦ absurd hsquare (hunreached motion hmem captor hcaptor)
      unfriendly := ?_
      grounded := (hspec.2.resolve_left (by simp [hoccupied])).2.1 }
  · rw [← h.valid_turn_iff hmem (h.unarrived_of_sourcesUnreached hunreached hmem)]
    exact valid_of_landed hresult
  · have hfoe := henemy.not_isFriendly
    rwa [hframe.untouched _ hbefore harrived, Piece.isFriendly_congr (hstart.kind _)] at hfoe

/-- Without premoves, a bystander that is put on the move cooldown rests without having moved. -/
theorem Lifecycle.noBystanderRests (h : engine.Lifecycle) {ms : ℕ}
    (hpremoves : ∀ source, engine.premoves source = none)
    (hunreached : engine.SourcesUnreached ms) (hearned : engine.CooldownsEarned ms) :
    engine.NoBystanderRests ms := by
  intro motion hmem hrests
  have hunvacated : engine.Unvacated ms (engine.completing ms) motion.destination :=
    fun leaver hleaver hsource ↦ absurd hsource.symm (hunreached leaver hleaver motion hmem)
  have hmissed : ∀ other ∈ engine.completing ms, other.destination = motion.destination →
      engine.result ms other ≠ .landed := by
    intro other hother hsquare hresult
    refine hrests.hindered other hother hsquare
      (h.unhindered_of_landed hunreached hother hresult ?_ ?_)
    · rwa [hsquare]
    · rw [hsquare]
      exact hrests.occupied
  have harrived : motion.destination ∉ (engine.arrivalTick ms).arrivedThisTick := by
    rw [(h.mem_arrived ms).2]
    rintro ⟨other, hother, hresult, hsquare⟩
    exact hmissed other hother hsquare hresult
  have hfull : ((engine.advanceTime ms).board.cell motion.destination).isEmpty = false := by
    rw [Piece.isEmpty_congr (h.kind_of_untouched hunvacated harrived)]
    exact hrests.occupied
  have horigin := h.origin_of_unarrived hunvacated harrived
  have hidle : (engine.advanceTime ms).isBusyAt motion.destination = false := by
    rw [not_busy_iff, activeMotions_advanceTime_of_none hpremoves]
    intro running hrunning hsource
    rw [List.mem_filter] at hrunning
    have hexpired := hrests.idle running hrunning.1 hsource
    rw [hexpired] at hrunning
    exact Bool.false_ne_true hrunning.2
  obtain ⟨mover, hmover, hsquare, hstays⟩ := hearned motion.destination hfull (by
    rw [h.moveCooldown_advanceTime ms hfull, if_pos ⟨⟨motion, hmem, rfl⟩, hidle⟩, horigin]
    exact hrests.rested)
  exact hmissed mover hmover hsquare hstays.landed

/-- In every reachable state, only pieces that have landed in a call and stay rest longer after it
than before, if no completing move puts a bystander on the move cooldown. Where no premove is stored
and no completing move goes to the source of another one, this condition is also necessary. -/
theorem cooldownsEarned_of_noBystanderRests (before : GameEngine)
    (hrest : CooldownsNonneg before.board) (ops : List Op) (ms : ℕ) :
    ((before.reset.run ops).NoBystanderRests ms → (before.reset.run ops).CooldownsEarned ms) ∧
      ((∀ source, (before.reset.run ops).premoves source = none) →
        (before.reset.run ops).SourcesUnreached ms → (before.reset.run ops).CooldownsEarned ms →
          (before.reset.run ops).NoBystanderRests ms) := by
  obtain ⟨hlife, hoccupied⟩ := (reachable_run before ops).lifecycle_occupied
  have hrests : CooldownsNonneg (before.reset.run ops).board :=
    (Transition.run_invariant step
      (I := fun engine ↦ engine.Lifecycle ∧ CooldownsNonneg engine.board)
      (fun engine op hengine ↦ ⟨hengine.1.step op, hengine.1.cooldownsNonneg_step op hengine.2⟩)
      ⟨lifecycle_reset before, hrest⟩ ops).2
  exact ⟨hlife.cooldownsEarned hoccupied (reachable_run before ops).airborne hrests,
    hlife.noBystanderRests⟩

/-- Two white rooks that can reach one corner. -/
def sharedCornerBoard : Board where
  cells :=
    [[.of .rook .white, .empty, .empty],
     [.empty, .empty, .of .rook .white]]
  rectangular := by decide

/-- The rook that lands in the corner rests rightly. -/
theorem cooldownsEarned_after_landing :
    ((reset { board := sharedCornerBoard }).run
        [.requestMove ⟨0, 0⟩ ⟨0, 2⟩, .requestMove ⟨1, 2⟩ ⟨0, 2⟩]).CooldownsEarned 1000 ∧
      ((reset { board := sharedCornerBoard }).run
        [.requestMove ⟨0, 0⟩ ⟨0, 2⟩, .requestMove ⟨1, 2⟩ ⟨0, 2⟩]).NoBystanderRests 1000 :=
  have hrest : CooldownsNonneg sharedCornerBoard := cooldownsNonneg_of_forall (by decide)
  have hboth := cooldownsEarned_of_noBystanderRests { board := sharedCornerBoard } hrest
    [.requestMove ⟨0, 0⟩ ⟨0, 2⟩, .requestMove ⟨1, 2⟩ ⟨0, 2⟩] 1000
  have hearned := hboth.1 (by decide)
  ⟨hearned, hboth.2 (fun _ ↦ rfl) (by decide) hearned⟩

/-- It rests once more when the other rook, whose move it blocks, arrives. -/
theorem blocked_move_rests_bystander :
    ¬ ((reset { board := sharedCornerBoard }).run
      [.requestMove ⟨0, 0⟩ ⟨0, 2⟩, .requestMove ⟨1, 2⟩ ⟨0, 2⟩, .advanceTime 1000,
        .advanceTime 999]).CooldownsEarned 1 := by
  intro hearned
  have hlanded := hearned ⟨0, 2⟩ (by decide) (by decide)
  revert hlanded
  decide

end GameEngine

end KongFuChess.Engine
