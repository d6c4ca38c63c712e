import KongFuChess.Engine.Independence

/-!
# Requests on separate squares

Two requests that name no common square are answered the same in either order, and they add the
same two motions to the end of the list, numbered the other way round. Since the numbers only
decide the order of arrivals, and since the arrivals of these two motions can be exchanged whenever
they complete in one call, the order of the requests is never seen again except in the order of the
log, in the events published, and in the winner where both motions attack a king.
-/

namespace KongFuChess.Engine

open Model Realtime Rules Events

/-! ## Cooldowns can be written in any order -/

/-- Change the piece on an occupied square. -/
def updateAt (update : Piece → Piece) (board : Board) (pos : Position) : Board :=
  if board.inBounds pos && !(board.cell pos).isEmpty then
    board.setCell pos (update (board.cell pos))
  else board

theorem updateAt_comm (update : Piece → Piece) (board : Board) (first second : Position) :
    updateAt update (updateAt update board first) second =
      updateAt update (updateAt update board second) first := by
  by_cases heq : first = second
  · rw [heq]
  have hcell : ∀ (pos other : Position), other ≠ pos →
      (updateAt update board pos).cell other = board.cell other := by
    intro pos other hne
    unfold updateAt
    split
    · exact Board.cell_setCell_ne _ _ hne
    · rfl
  have hbounds : ∀ pos other : Position,
      (updateAt update board pos).inBounds other = board.inBounds other := by
    intro pos other
    unfold updateAt
    split
    · exact Board.inBounds_setCell ..
    · rfl
  rw [updateAt.eq_def update (updateAt update board first), hcell first second (Ne.symm heq),
    hbounds, updateAt.eq_def update (updateAt update board second), hcell second first heq, hbounds]
  unfold updateAt
  split
  · split
    · exact Board.setCell_comm _ heq ..
    · rfl
  · rfl

/-- Writing the pieces on some squares of a list of motions. -/
def updateEach (update : Piece → Piece) (selected : Motion → Bool) (square : Motion → Position)
    (board : Board) (motion : Motion) : Board :=
  if selected motion then updateAt update board (square motion) else board

theorem foldl_updateEach_perm {update : Piece → Piece} {selected : Motion → Bool}
    {square : Motion → Position} {motions motions' : List Motion} (h : motions.Perm motions')
    (board : Board) :
    motions.foldl (updateEach update selected square) board =
      motions'.foldl (updateEach update selected square) board := by
  apply h.foldl_eq'
  intro first _ second _ board
  unfold updateEach
  split
  · split
    · exact updateAt_comm ..
    · rfl
  · rfl

theorem landJump_eq_updateEach (currentTimeMs : ℤ) (board : Board) (motion : Motion) :
    landJump currentTimeMs board motion =
      updateEach (·.setJumpCooldown GameConfig.kJumpCooldownMs)
        (fun motion ↦ motion.type = .jump && motion.isExpired currentTimeMs) (·.source) board
        motion := by
  simp only [landJump, updateEach, updateAt]
  split_ifs <;> simp_all

namespace GameEngine

theorem applyCooldown_eq_updateEach (engine : GameEngine) (completing : List Motion) :
    (engine.applyCooldownAfterArrivals completing).board =
      completing.foldl (updateEach (·.setMoveCooldown GameConfig.kMoveCooldownMs)
        (fun motion ↦ motion.type = .move && !engine.isBusyAt motion.destination) (·.destination))
        engine.board := by
  unfold applyCooldownAfterArrivals
  induction completing generalizing engine with
  | nil => rfl
  | cons motion rest ih =>
    have hhead : engine.applyCooldownAfterArrival motion =
        { engine with
          board := updateEach (·.setMoveCooldown GameConfig.kMoveCooldownMs)
            (fun motion ↦ motion.type = .move && !engine.isBusyAt motion.destination)
            (·.destination) engine.board motion } := by
      simp only [applyCooldownAfterArrival, updateEach, updateAt]
      split_ifs <;> simp_all
    rw [List.foldl_cons, List.foldl_cons, hhead]
    exact ih _

end GameEngine

/-! ## Motions without their numbers -/

/-- A motion without its number. Only the order of the list remembers it. -/
def unnumbered (motion : Motion) : Motion := { motion with motionId := 0 }

theorem filter_map_unnumbered {p : Motion → Bool} (hp : ∀ motion, p (unnumbered motion) = p motion)
    (motions : List Motion) :
    (motions.filter p).map unnumbered = (motions.map unnumbered).filter p := by
  rw [List.filter_map]
  exact congrArg _ (List.filter_congr fun motion _ ↦ (hp motion).symm)

theorem foldl_updateEach_unnumbered {update : Piece → Piece} {selected : Motion → Bool}
    {square : Motion → Position}
    (hselected : ∀ motion, selected (unnumbered motion) = selected motion)
    (hsquare : ∀ motion, square (unnumbered motion) = square motion) (board : Board)
    (motions : List Motion) :
    motions.foldl (updateEach update selected square) board =
      (motions.map unnumbered).foldl (updateEach update selected square) board := by
  rw [List.foldl_map]
  refine congrArg (fun step ↦ List.foldl step board motions) ?_
  funext board motion
  rw [updateEach, updateEach, hselected, hsquare]

theorem any_unnumbered {p : Motion → Bool} (hp : ∀ motion, p (unnumbered motion) = p motion)
    (motions : List Motion) : (motions.map unnumbered).any p = motions.any p := by
  rw [List.any_map]
  exact congrArg _ (funext hp)

/-- The jumps that land, whatever the numbers of the motions. The completing moves that have been
removed before are no jumps. -/
theorem GameEngine.board_afterArrivals_eq_foldl (engine : GameEngine) (ms : ℤ) :
    (engine.afterArrivals ms).board =
      (engine.activeMotions.map unnumbered).foldl
        (updateEach (·.setJumpCooldown GameConfig.kJumpCooldownMs)
          (fun motion ↦ motion.type = .jump && motion.isExpired (engine.elapsedMs + ms)) (·.source))
        (engine.arrivalTick ms).board := by
  have hstep : landJump (engine.elapsedMs + ms) = updateEach
      (·.setJumpCooldown GameConfig.kJumpCooldownMs)
      (fun motion ↦ motion.type = .jump && motion.isExpired (engine.elapsedMs + ms)) (·.source) :=
    funext fun board ↦ funext fun motion ↦ landJump_eq_updateEach _ board motion
  rw [engine.board_afterArrivals, ← foldl_updateEach_unnumbered (fun _ ↦ rfl) (fun _ ↦ rfl),
    ← hstep]
  split
  · rw [removeExpiredMotions, List.foldl_filter]
    refine congrArg (fun step ↦ List.foldl step _ engine.activeMotions) ?_
    funext board motion
    split
    · rfl
    · rename_i hremoved
      simp only [Bool.not_eq_true', Bool.not_eq_false, Bool.and_eq_true,
        decide_eq_true_eq] at hremoved
      simp [landJump, hremoved.1]
  · rfl

/-- Two lists that agree up to a tail whose moves share no squares. -/
def Exchanged (left right : List Motion) : Prop :=
  ∃ past late late', left = past ++ late ∧ right = past ++ late' ∧ late.Perm late' ∧
    late.Pairwise fun first second ↦ first.type = .move → second.type = .move → Apart first second

namespace Exchanged

variable {left right : List Motion}

theorem refl (motions : List Motion) : Exchanged motions motions :=
  ⟨motions, [], [], by simp, by simp, .nil, .nil⟩

theorem perm (h : Exchanged left right) : left.Perm right := by
  obtain ⟨past, late, late', rfl, rfl, hperm, -⟩ := h
  exact hperm.append_left past

theorem filter (h : Exchanged left right) (p : Motion → Bool) :
    Exchanged (left.filter p) (right.filter p) := by
  obtain ⟨past, late, late', rfl, rfl, hperm, hapart⟩ := h
  exact ⟨past.filter p, late.filter p, late'.filter p, List.filter_append .., List.filter_append ..,
    hperm.filter p, hapart.sublist List.filter_sublist⟩

end Exchanged

/-- Two ticks with the same board, the same squares reached and the same resolutions in some
order. -/
def Coincide (left right : Tick) : Prop := left.board = right.board ∧ Alike List.Perm left right

theorem coincide_equivalence : Equivalence Coincide where
  refl tick := ⟨rfl, (Alike.equivalence (List.Perm.eqv _)).refl tick⟩
  symm h := ⟨h.1.symm, (Alike.equivalence (List.Perm.eqv _)).symm h.2⟩
  trans h h' := ⟨h.1.trans h'.1, (Alike.equivalence (List.Perm.eqv _)).trans h.2 h'.2⟩

theorem Coincide.arrive (activeMotions : List Motion) (motion : Motion) (left right : Tick)
    (h : Coincide left right) :
    Coincide (arrive activeMotions left motion) (arrive activeMotions right motion) := by
  obtain ⟨hboard, halike⟩ := h
  refine ⟨?_, halike.arrive (fun _ _ suffix hperm ↦ hperm.append_right suffix) ..⟩
  have hresult : outcome activeMotions left motion = outcome activeMotions right motion :=
    outcome_congr (by rw [hboard]) (by rw [hboard]) fun _ ↦ ⟨rfl, halike.arrived _⟩
  rw [Engine.arrive, Engine.arrive, hresult]
  generalize outcome activeMotions right motion = result
  cases result with
  | stale | blocked => exact hboard
  | jumpCaptured | lostTie | landed => simp only [Tick.settle, hboard]

/-- Exchanged moves lead to coinciding ticks. -/
theorem Exchanged.run_arrive {left right : List Motion} (h : Exchanged left right)
    (hmove : ∀ motion ∈ left, motion.type = .move) (activeMotions : List Motion) (tick : Tick) :
    Coincide (Transition.run (arrive activeMotions) tick left)
      (Transition.run (arrive activeMotions) tick right) := by
  obtain ⟨past, late, late', rfl, rfl, hperm, hapart⟩ := h
  rw [Transition.run_append, Transition.run_append]
  apply Transition.run_perm coincide_equivalence (Coincide.arrive activeMotions) hperm
  refine hapart.imp_of_mem fun {first second} hfirst hsecond happly tick ↦ ?_
  have hseparate := happly (hmove first (List.mem_append_right _ hfirst))
    (hmove second (List.mem_append_right _ hsecond))
  exact ⟨board_arrive_comm hseparate activeMotions tick, arrive_comm hseparate activeMotions tick⟩

/-- Arrivals do not look at the numbers. -/
theorem run_arrive_unnumbered (activeMotions : List Motion) (tick : Tick)
    (motions : List Motion) :
    Transition.run (arrive activeMotions) tick (motions.map unnumbered) =
      Transition.run (arrive activeMotions) tick motions :=
  List.foldl_map

/-- Arrivals depend on the active motions through the squares of the jumps. -/
theorem arrive_congr {activeMotions activeMotions' : List Motion}
    (h : ∀ pos, isJumpActiveAt activeMotions pos = isJumpActiveAt activeMotions' pos) :
    arrive activeMotions = arrive activeMotions' := by
  funext tick motion
  rw [arrive, arrive]
  exact congrArg _ (outcome_congr rfl rfl fun _ ↦ ⟨h _, Iff.rfl⟩)

namespace GameEngine

/-! ## Engines that differ in the order of two requests -/

/-- The two engines show the same game, and their motions differ in number and order only. -/
structure SameGame (left right : GameEngine) : Prop where
  board : left.board = right.board
  elapsedMs : left.elapsedMs = right.elapsedMs
  isGameOver : left.isGameOver = right.isGameOver
  score : ∀ color, left.moveLog.score color = right.moveLog.score color
  entries : left.moveLog.entries.Perm right.moveLog.entries
  noPremoves : ∀ source, left.premoves source = none
  noPremoves' : ∀ source, right.premoves source = none
  motions : Exchanged (left.activeMotions.map unnumbered) (right.activeMotions.map unnumbered)
  orderly : left.Orderly
  orderly' : right.Orderly

namespace SameGame

variable {left right : GameEngine}

theorem any_eq (h : left.SameGame right) {p : Motion → Bool}
    (hp : ∀ motion, p (unnumbered motion) = p motion) :
    left.activeMotions.any p = right.activeMotions.any p := by
  calc
    _ = (left.activeMotions.map unnumbered).any p := (any_unnumbered hp _).symm
    _ = (right.activeMotions.map unnumbered).any p := h.motions.perm.any_eq
    _ = right.activeMotions.any p := any_unnumbered hp _

theorem isBusyAt (h : left.SameGame right) (pos : Position) :
    left.isBusyAt pos = right.isBusyAt pos :=
  h.any_eq fun _ ↦ rfl

theorem isJumpActiveAt (h : left.SameGame right) (pos : Position) :
    isJumpActiveAt left.activeMotions pos = isJumpActiveAt right.activeMotions pos :=
  h.any_eq fun _ ↦ rfl

theorem completing (h : left.SameGame right) (ms : ℤ) :
    Exchanged ((left.completing ms).map unnumbered) ((right.completing ms).map unnumbered) := by
  rw [GameEngine.completing, GameEngine.completing, ← h.elapsedMs, completingMoves,
    completingMoves, filter_map_unnumbered fun _ ↦ rfl, filter_map_unnumbered fun _ ↦ rfl]
  exact h.motions.filter _

theorem verdict (h : left.SameGame right) (motion : Motion) :
    left.verdict motion = right.verdict motion := by
  simp only [GameEngine.verdict, h.board, h.isJumpActiveAt]

end SameGame

/-- The flag after a call of `advanceTime`. -/
theorem isGameOver_advanceTime_eq (engine : GameEngine) (ms : ℤ) :
    (engine.advanceTime ms).isGameOver =
      (engine.isGameOver || (engine.completing ms).any fun motion ↦
        (engine.verdict motion).isSome) := by
  rw [isGameOver_advanceTime, checkGameOver_eq]
  cases hover : engine.isGameOver with
  | true => exact hover
  | false =>
    rw [if_neg Bool.false_ne_true, Bool.false_or]
    cases hfound : (engine.completing ms).findSome? engine.verdict with
    | none =>
      rw [List.findSome?_eq_none_iff] at hfound
      simp only [hover]
      symm
      rw [List.any_eq_false]
      intro motion hmem
      simp [hfound motion hmem]
    | some winnerColor =>
      obtain ⟨motion, hmem, hverdict⟩ := List.exists_of_findSome?_eq_some hfound
      symm
      exact List.any_eq_true.2 ⟨motion, hmem, by simp [hverdict]⟩

namespace SameGame

variable {left right : GameEngine}

/-- The arrivals of one call coincide. -/
theorem arrivalTick (h : left.SameGame right) (ms : ℤ) :
    Coincide (left.arrivalTick ms) (right.arrivalTick ms) := by
  have hstart : left.arrivalStart ms = right.arrivalStart ms := by
    rw [arrivalStart, arrivalStart, h.board]
  rw [h.orderly.arrivalTick_eq_run, h.orderly'.arrivalTick_eq_run, ← run_arrive_unnumbered,
    ← run_arrive_unnumbered _ _ (right.completing ms), hstart, arrive_congr h.isJumpActiveAt]
  apply (h.completing ms).run_arrive
  intro motion hmem
  obtain ⟨completed, hcompleted, rfl⟩ := List.mem_map.1 hmem
  exact (mem_completing.1 hcompleted).2.1

theorem board_afterArrivals (h : left.SameGame right) (ms : ℤ) :
    (left.afterArrivals ms).board = (right.afterArrivals ms).board := by
  rw [board_afterArrivals_eq_foldl, board_afterArrivals_eq_foldl, ← h.elapsedMs,
    (h.arrivalTick ms).1]
  exact foldl_updateEach_perm h.motions.perm _

/-- `advanceTime` keeps two such engines alike. -/
theorem advanceTime (h : left.SameGame right) (ms : ℤ) :
    (left.advanceTime ms).SameGame (right.advanceTime ms) := by
  have hactive := activeMotions_advanceTime_of_none h.noPremoves ms
  have hactive' := activeMotions_advanceTime_of_none h.noPremoves' ms
  have hresolutions := (h.arrivalTick ms).2.resolutions
  have hbusy : ∀ pos, (left.afterArrivals ms).isBusyAt pos =
      (right.afterArrivals ms).isBusyAt pos := by
    intro pos
    rw [GameEngine.isBusyAt, GameEngine.isBusyAt, activeMotions_afterArrivals,
      activeMotions_afterArrivals, List.any_filter, List.any_filter, ← h.elapsedMs]
    exact h.any_eq fun _ ↦ rfl
  exact
    { board := by
        rw [advanceTime_of_none h.noPremoves, advanceTime_of_none h.noPremoves',
          applyCooldown_eq_updateEach, applyCooldown_eq_updateEach, h.board_afterArrivals]
        simp only [hbusy]
        have hperm := (h.completing ms).perm
        rw [foldl_updateEach_unnumbered (fun _ ↦ rfl) (fun _ ↦ rfl) _ (left.completing ms),
          foldl_updateEach_unnumbered (fun _ ↦ rfl) (fun _ ↦ rfl) _ (right.completing ms)]
        exact foldl_updateEach_perm hperm _
      elapsedMs := by rw [elapsedMs_advanceTime, elapsedMs_advanceTime, h.elapsedMs]
      isGameOver := by
        rw [isGameOver_advanceTime_eq, isGameOver_advanceTime_eq, h.isGameOver,
          funext h.verdict, ← any_unnumbered (fun _ ↦ rfl) (left.completing ms),
          ← any_unnumbered (fun _ ↦ rfl) (right.completing ms), (h.completing ms).perm.any_eq]
      score := by
        intro color
        have hsum := (hresolutions.map (MoveLog.pointsOf color)).sum_eq
        simp only [moveLog_advanceTime, moveLog_afterArrivals, MoveLog.score_foldl_record, hsum,
          h.score]
      entries := by
        simp only [moveLog_advanceTime, moveLog_afterArrivals, MoveLog.entries_foldl_record]
        exact h.entries.append (hresolutions.map MoveLog.entryOf)
      noPremoves := by
        rw [advanceTime_of_none h.noPremoves]
        simpa using h.noPremoves
      noPremoves' := by
        rw [advanceTime_of_none h.noPremoves']
        simpa using h.noPremoves'
      motions := by
        rw [hactive, hactive', filter_map_unnumbered fun _ ↦ rfl, filter_map_unnumbered fun _ ↦ rfl,
          ← h.elapsedMs]
        exact h.motions.filter _
      orderly := h.orderly.advanceTime_of_none h.noPremoves ms
      orderly' := h.orderly'.advanceTime_of_none h.noPremoves' ms }

end SameGame

/-! ## Requests -/

end GameEngine

inductive Request
  | move (fromPos toPos : Position)
  | jump (pos : Position)
deriving DecidableEq, Repr

namespace Request

def op : Request → Op
  | .move fromPos toPos => .requestMove fromPos toPos
  | .jump pos => .requestJump pos

/-- The squares a request names. -/
def squares : Request → List Position
  | .move fromPos toPos => [fromPos, toPos]
  | .jump pos => [pos]

/-- The motion an accepted request adds. -/
def motion (engine : GameEngine) : Request → Motion
  | .move fromPos toPos => engine.newMove fromPos toPos
  | .jump pos => engine.newJump pos

def event (engine : GameEngine) : Request → GameEvent
  | .move fromPos toPos => .moveStarted (engine.moveStartedEvent fromPos toPos)
  | .jump pos => .jumpStarted (engine.jumpStartedEvent pos)

theorem source_mem_squares (engine : GameEngine) (request : Request) :
    (request.motion engine).source ∈ request.squares := by
  cases request <;> exact List.mem_cons_self ..

end Request

namespace GameEngine

variable {engine : GameEngine} {first second : Request}

theorem answer_request (engine : GameEngine) (request : Request) :
    engine.answer request.op = some (engine.accepts request.op) := by
  have haccepted := engine.answer_eq_true_iff request.op
  obtain ⟨answered, hanswered⟩ : ∃ answered, engine.answer request.op = some answered := by
    cases request <;> exact ⟨_, rfl⟩
  rw [hanswered, Option.some_inj, ← Bool.eq_iff_iff] at haccepted
  rw [hanswered, haccepted]

theorem step_request (engine : GameEngine) (request : Request) :
    engine.step request.op =
      if engine.accepts request.op then
        engine.start (request.motion engine) (request.event engine)
      else engine := by
  have hanswer := engine.answer_request request
  cases request with
  | move fromPos toPos =>
    rcases engine.requestMove_cases fromPos toPos with heq | ⟨-, heq⟩
    · simp only [Request.op, answer, perform, heq, Option.some_inj] at hanswer
      simp only [Request.op, step_requestMove, heq, ← hanswer, Bool.false_eq_true, if_false]
    · simp only [Request.op, answer, perform, heq, Option.some_inj] at hanswer
      simp only [Request.op, step_requestMove, heq, ← hanswer, if_true]
      rfl
  | jump pos =>
    rcases engine.requestJump_cases pos with heq | ⟨-, heq⟩
    · simp only [Request.op, answer, perform, heq, Option.some_inj] at hanswer
      simp only [Request.op, step_requestJump, heq, ← hanswer, Bool.false_eq_true, if_false]
    · simp only [Request.op, answer, perform, heq, Option.some_inj] at hanswer
      simp only [Request.op, step_requestJump, heq, ← hanswer, if_true]
      rfl

/-- A motion that starts elsewhere does not change the answer to a request. -/
theorem accepts_start {motion : Motion} {event : GameEvent} {request : Request}
    (h : motion.source ∉ request.squares) :
    (engine.start motion event).accepts request.op = engine.accepts request.op := by
  have hbusy : ∀ pos ∈ request.squares,
      (engine.start motion event).isBusyAt pos = engine.isBusyAt pos := by
    intro pos hpos
    have hne : motion.source ≠ pos := fun heq ↦ h (heq ▸ hpos)
    simp [isBusyAt, hne]
  cases request with
  | move fromPos toPos =>
    have hfrom := hbusy fromPos (List.mem_cons_self ..)
    simp only [Request.op, accepts, hfrom, isGameOver_start, board_start]
  | jump pos =>
    have hpos := hbusy pos (List.mem_cons_self ..)
    simp only [Request.op, accepts, hpos, isGameOver_start, board_start]
    rfl

theorem accepts_step (hseparate : ∀ pos ∈ first.squares, pos ∉ second.squares) :
    (engine.step first.op).accepts second.op = engine.accepts second.op := by
  rw [step_request]
  split
  · exact accepts_start (hseparate _ (first.source_mem_squares engine))
  · rfl

/-- The motions of two such requests share no square. -/
theorem apart_motion (hseparate : ∀ pos ∈ first.squares, pos ∉ second.squares)
    (hfirst : (first.motion engine).type = .move) (hsecond : (second.motion engine).type = .move) :
    Apart (first.motion engine) (second.motion engine) := by
  cases first with
  | jump pos => simp [Request.motion, newJump] at hfirst
  | move fromPos toPos =>
    cases second with
    | jump pos => simp [Request.motion, newJump] at hsecond
    | move fromPos' toPos' => exact hseparate

theorem step_of_accepted {request : Request} (h : engine.accepts request.op = true) :
    engine.step request.op = engine.start (request.motion engine) (request.event engine) := by
  rw [step_request, if_pos h]

theorem step_of_refused {request : Request} (h : engine.accepts request.op = false) :
    engine.step request.op = engine := by
  rw [step_request, if_neg (by simp [h])]

theorem SameGame.refl (hlife : engine.Lifecycle)
    (hpremoves : ∀ source, engine.premoves source = none) : engine.SameGame engine where
  board := rfl
  elapsedMs := rfl
  isGameOver := rfl
  score := fun _ ↦ rfl
  entries := .refl _
  noPremoves := hpremoves
  noPremoves' := hpremoves
  motions := .refl _
  orderly := hlife.orderly
  orderly' := hlife.orderly

/-- Requests leave the premoves alone. -/
theorem premoves_step_request (engine : GameEngine) (request : Request) :
    (engine.step request.op).premoves = engine.premoves := by
  rw [step_request]
  split <;> rfl

/-- After requests on separate squares the game is the same in either order. -/
theorem sameGame_requests (hlife : engine.Lifecycle)
    (hpremoves : ∀ source, engine.premoves source = none)
    (hseparate : ∀ pos ∈ first.squares, pos ∉ second.squares) :
    ((engine.step first.op).step second.op).SameGame
      ((engine.step second.op).step first.op) := by
  have hseparate' : ∀ pos ∈ second.squares, pos ∉ first.squares :=
    fun pos hsecond hfirst ↦ hseparate pos hfirst hsecond
  have hlater : (engine.step first.op).accepts second.op = engine.accepts second.op :=
    accepts_step hseparate
  have hlater' : (engine.step second.op).accepts first.op = engine.accepts first.op :=
    accepts_step hseparate'
  cases hfirst : engine.accepts first.op with
  | false =>
    rw [step_of_refused hfirst, step_of_refused (hlater'.trans hfirst)]
    exact .refl (hlife.step _) (by rwa [premoves_step_request])
  | true =>
    cases hsecond : engine.accepts second.op with
    | false =>
      rw [step_of_refused hsecond, step_of_refused (hlater.trans hsecond)]
      exact .refl (hlife.step _) (by rwa [premoves_step_request])
    | true =>
      have horderly := ((hlife.step first.op).step second.op).orderly
      have horderly' := ((hlife.step second.op).step first.op).orderly
      rw [step_of_accepted (hlater.trans hsecond), step_of_accepted hfirst] at horderly ⊢
      rw [step_of_accepted (hlater'.trans hfirst), step_of_accepted hsecond] at horderly' ⊢
      exact
        { board := rfl
          elapsedMs := rfl
          isGameOver := rfl
          score := fun _ ↦ rfl
          entries := .refl _
          noPremoves := hpremoves
          noPremoves' := hpremoves
          motions := by
            refine ⟨engine.activeMotions.map unnumbered,
              [first.motion engine, second.motion engine].map unnumbered,
              [second.motion engine, first.motion engine].map unnumbered, ?_, ?_, .swap .., ?_⟩
            · simp only [activeMotions_start, List.map_append, List.append_assoc]
              cases second <;> rfl
            · simp only [activeMotions_start, List.map_append, List.append_assoc]
              cases first <;> rfl
            · exact List.pairwise_pair.2 fun hmove hmove' ↦ apart_motion hseparate hmove hmove'
          orderly := horderly
          orderly' := horderly' }

theorem SameGame.run {left right : GameEngine} (h : left.SameGame right) (times : List ℤ) :
    (Transition.run GameEngine.advanceTime left times).SameGame
      (Transition.run GameEngine.advanceTime right times) := by
  induction times generalizing left right with
  | nil => exact h
  | cons ms times ih => exact ih (h.advanceTime ms)

/-- What the two orders must agree on. -/
structure SameOutcome (left right : GameEngine) : Prop where
  board : left.board = right.board
  isGameOver : left.isGameOver = right.isGameOver
  score : ∀ color, left.moveLog.score color = right.moveLog.score color
  entries : left.moveLog.entries.Perm right.moveLog.entries

/-- Requests that name no common square commute: each gets the same answer in either order, and
however the time passes afterwards, the boards, the game-over flags and the scores are the same and
the logs are the same up to order. -/
theorem requests_commute (h : Reachable engine)
    (hpremoves : ∀ source, engine.premoves source = none)
    (hseparate : ∀ pos ∈ first.squares, pos ∉ second.squares) :
    (engine.step second.op).answer first.op = engine.answer first.op ∧
      (engine.step first.op).answer second.op = engine.answer second.op ∧
      ∀ times : List ℤ,
        (Transition.run advanceTime (engine.run [first.op, second.op]) times).SameOutcome
          (Transition.run advanceTime (engine.run [second.op, first.op]) times) := by
  refine ⟨?_, ?_, ?_⟩
  · rw [answer_request, answer_request,
      accepts_step fun pos hsecond hfirst ↦ hseparate pos hfirst hsecond]
  · rw [answer_request, answer_request, accepts_step hseparate]
  · intro times
    have hsame := (sameGame_requests h.lifecycle hpremoves hseparate).run times
    exact ⟨hsame.board, hsame.isGameOver, hsame.score, hsame.entries⟩

/-- A rook and a knight of each side. -/
def crossingBoard : Board where
  cells :=
    [[.of .rook .white, .of .knight .black, .empty, .of .rook .black],
     [.empty, .of .king .white, .empty, .empty]]
  rectangular := by decide

/-- The white rook and the black knight set out at the same time, and both of them arrive. -/
theorem requests_commute_crossing :
    (Transition.run advanceTime ((reset { board := crossingBoard }).run
        [(Request.move ⟨0, 0⟩ ⟨1, 0⟩).op, (Request.move ⟨0, 1⟩ ⟨1, 3⟩).op])
        [1000, 3000]).SameOutcome
      (Transition.run advanceTime ((reset { board := crossingBoard }).run
        [(Request.move ⟨0, 1⟩ ⟨1, 3⟩).op, (Request.move ⟨0, 0⟩ ⟨1, 0⟩).op]) [1000, 3000]) :=
  (requests_commute (reachable_reset _) (fun _ ↦ rfl) (by decide)).2.2 [1000, 3000]

end GameEngine

end KongFuChess.Engine
