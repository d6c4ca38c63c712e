import KongFuChess.Engine.Census
import KongFuChess.Engine.Identity
import Mathlib.Data.List.Find

/-!
# The end of the game

The game-over check runs before the arrivals of the call are resolved, on the board that the call
found. It flags the first completing move that attacks an enemy king there, or whose king goes
onto an airborne piece, and declares the owner of the moving piece the winner. Whether a king is
lost is decided afterwards, turn by turn.

The module compares the two. A flagged attack on a king that neither escapes nor is airborne, by a
piece that is not captured first, does capture a king; and every capture of a king is flagged,
except the one of a king that arrives second on its square.
-/

namespace KongFuChess.Engine

open Model Realtime Rules Events

/-- One for a king of the given colour. -/
def kingWeight (color : Color) (piece : Piece) : ℤ :=
  if piece.type = .king ∧ piece.color = color then 1 else 0

/-- The number of kings of the given colour on the board. -/
def kings (color : Color) (board : Board) : ℤ := board.total (kingWeight color)

theorem visible_kingWeight (color : Color) : Visible (kingWeight color) where
  empty := by
    intro piece hempty
    rw [Piece.isEmpty_iff] at hempty
    simp [kingWeight, hempty]
  congr := by
    intro left right hkind
    rw [kingWeight, kingWeight, Piece.type_congr hkind, Piece.color_congr hkind]

/-- Promotion neither makes nor unmakes a king. -/
theorem kingWeight_landedPiece (color : Color) (board : Board) (motion : Motion) :
    kingWeight color (landedPiece board motion) = kingWeight color (board.cell motion.source) := by
  simp only [kingWeight, landedPiece_type, landedPiece_color]
  split
  · rename_i hpromoted
    simp [hpromoted.1]
  · rfl

namespace GameEngine

/-! ## Kings removed by the turns -/

/-- The turn of the move removes a king of the given colour, by capturing it or, if it is the king
that moves, by its own capture or its second arrival. -/
def RemovesKing (engine : GameEngine) (ms : ℤ) (color : Color) (motion : Motion) : Prop :=
  kingWeight color ((engine.turn ms motion).board.cell
    (if engine.result ms motion = .landed then motion.destination else motion.source)) = 1 ∧
  engine.result ms motion ≠ .stale ∧ engine.result ms motion ≠ .blocked

instance (engine : GameEngine) (ms : ℤ) (color : Color) (motion : Motion) :
    Decidable (engine.RemovesKing ms color motion) :=
  inferInstanceAs (Decidable (_ ∧ _))

theorem kings_settle {engine : GameEngine} {ms : ℤ} {motion : Motion}
    (hon : motion.OnBoard (engine.turn ms motion).board) (color : Color) :
    kings color ((engine.turn ms motion).settle motion (engine.result ms motion)).board =
      kings color (engine.turn ms motion).board -
        if engine.RemovesKing ms color motion then 1 else 0 := by
  have hweight : ∀ piece, kingWeight color piece = if kingWeight color piece = 1 then 1 else 0 := by
    intro piece
    unfold kingWeight
    split <;> simp
  rw [kings, total_settle (visible_kingWeight color) hon]
  cases hresult : engine.result ms motion with
  | stale | blocked => simp [RemovesKing, hresult, kings]
  | jumpCaptured | lostTie =>
    simp only [RemovesKing, hresult, kings]
    rw [hweight]
    simp
  | landed =>
    simp only [RemovesKing, hresult, kings, kingWeight_landedPiece]
    rw [hweight ((engine.turn ms motion).board.cell motion.destination)]
    simp only [if_true, ne_eq, reduceCtorEq, not_false_eq_true, and_true]
    omega

/-- A call removes a king of the given colour if fewer of them are on the board afterwards. -/
def KingRemoved (engine : GameEngine) (ms : ℕ) (color : Color) : Prop :=
  kings color (engine.advanceTime ms).board < kings color engine.board

instance (engine : GameEngine) (ms : ℕ) (color : Color) : Decidable (engine.KingRemoved ms color) :=
  inferInstanceAs (Decidable (_ < _))

/-- A call removes a king if and only if one of its turns does. -/
theorem Lifecycle.kingRemoved_iff {engine : GameEngine} (h : engine.Lifecycle) {ms : ℕ}
    {color : Color} :
    engine.KingRemoved ms color ↔
      ∃ motion ∈ engine.completing ms, engine.RemovesKing ms color motion := by
  have hcount : kings color (engine.arrivalTick ms).board =
      kings color engine.board -
        (engine.completing ms).countP fun motion ↦ engine.RemovesKing ms color motion := by
    refine (h.turns ms (I := fun past tick ↦ kings color tick.board =
      kings color engine.board -
        past.countP fun motion ↦ engine.RemovesKing ms color motion) ?_ ?_).2
    · rw [kings, total_arrivalStart _ _ (visible_kingWeight color)]
      simp [kings]
    · intro past motion future _ hon hpast
      rw [kings_settle hon, hpast, List.countP_append, List.countP_singleton]
      split
      · rename_i hremoves
        simp only [hremoves, decide_true, if_true]
        omega
      · rename_i hremoves
        simp [hremoves]
  have hpositive := List.countP_pos_iff
    (p := fun motion ↦ decide (engine.RemovesKing ms color motion)) (l := engine.completing ms)
  simp only [decide_eq_true_eq] at hpositive
  rw [← hpositive, KingRemoved, kings, total_advanceTime _ _ (visible_kingWeight color), ← kings,
    hcount]
  omega

/-! ## The flagged move -/

/-- On the board that the call finds, the move goes to an enemy king, or takes a king onto an
airborne piece. -/
def Threatens (engine : GameEngine) (motion : Motion) : Prop :=
  (engine.board.cell motion.source).isEmpty = false ∧
    (Enemy (engine.board.cell motion.destination) (engine.board.cell motion.source).color ∧
        (engine.board.cell motion.destination).type = .king ∨
      isJumpActiveAt engine.activeMotions motion.destination = true ∧
        (engine.board.cell motion.source).type = .king)

instance (engine : GameEngine) (motion : Motion) : Decidable (engine.Threatens motion) :=
  inferInstanceAs (Decidable (_ ∧ _))

/-- The game-over check flags the moves in which a king is at stake. -/
theorem verdict_isSome_iff {engine : GameEngine} {motion : Motion} (htype : motion.type = .move) :
    (engine.verdict motion).isSome = true ↔ engine.Threatens motion := by
  by_cases hsource : (engine.board.cell motion.source).isEmpty = true
  · simp [verdict, Threatens, htype, hsource]
  have hsource' : (engine.board.cell motion.source).isEmpty = false := by simpa using hsource
  have henemy : Enemy (engine.board.cell motion.destination)
      (engine.board.cell motion.source).color ↔
        (engine.board.cell motion.destination).isEmpty = false ∧
          (engine.board.cell motion.destination).isFriendly
            (engine.board.cell motion.source).color = false := by
    refine and_congr_right fun hfull ↦ ⟨fun hcolor ↦ ?_, Piece.color_of_not_isFriendly hfull⟩
    rw [← Bool.not_eq_true, Piece.isFriendly_iff, hcolor]
    exact fun hsame ↦ Color.opposite_ne _ hsame.2
  simp only [verdict, Threatens, htype, hsource', henemy]
  simp only [ne_eq, not_true_eq_false, decide_false, Bool.or_self, Bool.false_eq_true, if_false,
    Bool.and_eq_true, Bool.not_eq_true', decide_eq_true_eq, true_and]
  split
  · rename_i hking
    simp [hking]
  · rename_i hking
    split
    · rename_i hjump
      simp [hjump]
    · rename_i hjump
      simp only [Option.isSome_none, Bool.false_eq_true, false_iff, not_or]
      exact ⟨fun h ↦ hking ⟨⟨h.1.1, h.2⟩, h.1.2⟩, hjump⟩

/-- The first completing move in which a king is at stake. -/
def flagged (engine : GameEngine) (ms : ℤ) : Option Motion :=
  (engine.completing ms).find? fun motion ↦ engine.Threatens motion

theorem flagged_eq (engine : GameEngine) (ms : ℤ) :
    engine.flagged ms =
      (engine.completing ms).find? fun motion ↦ (engine.verdict motion).isSome := by
  refine List.find?_congr fun motion hmem ↦ ?_
  rw [Bool.eq_iff_iff, verdict_isSome_iff (mem_completing.1 hmem).2.1, decide_eq_true_eq]

theorem findSome?_eq_bind_find? {α β : Type*} (f : α → Option β) (entries : List α) :
    entries.findSome? f = (entries.find? fun entry ↦ (f entry).isSome).bind f := by
  induction entries with
  | nil => rfl
  | cons entry rest ih =>
    rw [List.findSome?_cons, List.find?_cons]
    cases hentry : f entry with
    | none => simpa using ih
    | some value => simp [hentry]

/-- The verdict of a call is that of its flagged move. -/
theorem verdict_advanceTime {engine : GameEngine} (ms : ℤ) (hover : engine.isGameOver = false) :
    match (engine.flagged ms).bind engine.verdict with
    | none => (engine.advanceTime ms).isGameOver = false
    | some winnerColor =>
      (engine.advanceTime ms).isGameOver = true ∧
        (engine.advanceTime ms).winner = some winnerColor := by
  rw [isGameOver_advanceTime, winner_advanceTime, checkGameOver_eq, if_neg (by simp [hover]),
    findSome?_eq_bind_find?, ← flagged_eq]
  cases (engine.flagged ms).bind engine.verdict with
  | none => exact hover
  | some winnerColor => exact ⟨rfl, rfl⟩

theorem mem_completing_of_flagged {engine : GameEngine} {ms : ℤ} {motion : Motion}
    (h : engine.flagged ms = some motion) : motion ∈ engine.completing ms :=
  List.mem_of_find?_eq_some h

/-- The flagged move attacks a grounded enemy king with the piece that started it, and no move
resolved before it takes the king away or goes for the attacker. -/
structure SoundAttack (engine : GameEngine) (ms : ℕ) (attack : Motion) : Prop where
  valid : attack.Valid engine.board
  king : (engine.board.cell attack.destination).Is .king attack.pieceColor.opposite
  grounded : isJumpActiveAt engine.activeMotions attack.destination = false
  unescaped : ∀ other ∈ engine.completing ms, motionLess other attack = true →
    other.Valid engine.board → other.source ≠ attack.destination
  unchallenged : ∀ other ∈ engine.completing ms, motionLess other attack = true →
    other.Valid engine.board → other.destination = attack.source →
      other.pieceColor = attack.pieceColor

instance (engine : GameEngine) (ms : ℕ) (attack : Motion) :
    Decidable (engine.SoundAttack ms attack) :=
  decidable_of_iff (attack.Valid engine.board ∧
      (engine.board.cell attack.destination).Is .king attack.pieceColor.opposite ∧
      isJumpActiveAt engine.activeMotions attack.destination = false ∧
      (∀ other ∈ engine.completing ms, motionLess other attack = true →
        other.Valid engine.board → other.source ≠ attack.destination) ∧
      ∀ other ∈ engine.completing ms, motionLess other attack = true →
        other.Valid engine.board → other.destination = attack.source →
          other.pieceColor = attack.pieceColor)
    ⟨fun ⟨valid, king, grounded, unescaped, unchallenged⟩ ↦
        ⟨valid, king, grounded, unescaped, unchallenged⟩,
      fun h ↦ ⟨h.valid, h.king, h.grounded, h.unescaped, h.unchallenged⟩⟩

theorem SoundAttack.verdict_eq {engine : GameEngine} {ms : ℕ} {attack : Motion}
    (h : engine.SoundAttack ms attack) (htype : attack.type = .move) :
    engine.verdict attack = some attack.pieceColor := by
  have hfriendly : (engine.board.cell attack.destination).isFriendly attack.pieceColor = false := by
    rw [← Bool.not_eq_true, Piece.isFriendly_iff, h.king.2.2]
    exact fun hsame ↦ Color.opposite_ne _ hsame.2
  simp [verdict, htype, h.valid.not_isEmpty, h.valid.color, h.king.1, h.king.2.1, hfriendly]

section Attack

variable {engine : GameEngine} {ms : ℕ} {attack : Motion} {past future : List Motion}

/-- The attacker is still there at its turn: a captor would have been an enemy resolved before. -/
theorem SoundAttack.valid_turn (h : engine.SoundAttack ms attack) (hlife : engine.Lifecycle)
    (hoccupied : engine.Occupied) (hrecapture : engine.NoRecapture ms)
    (hsplit : engine.completing ms = past ++ attack :: future) :
    attack.Valid (engine.turn ms attack).board := by
  have hmem : attack ∈ engine.completing ms := by simp [hsplit]
  have hframe := hlife.frame_turn hsplit
  have hattacker := ((engine.sameKinds_arrivalStart ms).valid attack).2 h.valid
  have hsource := hlife.unvacated hsplit (mem_completing.1 hmem).1 (hlife.notMem_past hsplit)
  have hpresent : attack.source ∉ (engine.turn ms attack).arrivedThisTick := by
    intro harrived
    obtain ⟨captor, hcaptor, hresult, hsquare, hcell, -⟩ := hframe.captured _ hsource harrived
    have hcompleting : captor ∈ engine.completing ms := mem_completing_of_past hsplit hcaptor
    have henemy := (enemy_of_landed hresult (by
      rw [hsquare, hcell]
      exact hattacker.not_isEmpty)).1
    rw [hsquare, hcell] at henemy
    have hsame := h.unchallenged captor hcompleting (hlife.motionLess_of_split hsplit hcaptor)
      (hlife.valid_of_turn hoccupied hrecapture hcompleting (valid_of_landed hresult)) hsquare
    have hcolor := hattacker.color.symm.trans henemy.2
    rw [hsame] at hcolor
    exact Color.ne_opposite _ hcolor
  rw [Motion.Valid, hframe.untouched _ hsource hpresent]
  exact hattacker

/-- The king has not moved away: its own move would have been resolved before. -/
theorem SoundAttack.unvacated (h : engine.SoundAttack ms attack) (hlife : engine.Lifecycle)
    (hoccupied : engine.Occupied) (hrecapture : engine.NoRecapture ms)
    (hsplit : engine.completing ms = past ++ attack :: future) :
    engine.Unvacated ms past attack.destination := by
  intro other hother heq
  have hcompleting : other ∈ engine.completing ms := mem_completing_of_past hsplit hother
  by_contra hmoved
  rw [not_or] at hmoved
  exact h.unescaped other hcompleting (hlife.motionLess_of_split hsplit hother)
    (hlife.valid_of_turn hoccupied hrecapture hcompleting (valid_of_ne_stale hmoved.1)) heq

/-- The attacker lands on a king that is still there. -/
theorem SoundAttack.landed (h : engine.SoundAttack ms attack)
    (hvalid : attack.Valid (engine.turn ms attack).board)
    (hking : ((engine.turn ms attack).board.cell attack.destination).Is .king
      attack.pieceColor.opposite)
    (harrived : attack.destination ∉ (engine.turn ms attack).arrivedThisTick) :
    engine.result ms attack = .landed := by
  have henemy : Enemy ((engine.turn ms attack).board.cell attack.destination) attack.pieceColor :=
    ⟨hking.1, hking.2.2⟩
  exact landed_of_unopposed hvalid henemy.not_isFriendly h.grounded harrived

/-- A sound attack costs the enemy a king: the attacker captures it, or another piece has captured
it before. -/
theorem Lifecycle.kingRemoved_of_soundAttack (hlife : engine.Lifecycle)
    (hoccupied : engine.Occupied) (hrecapture : engine.NoRecapture ms)
    (hmem : attack ∈ engine.completing ms) (h : engine.SoundAttack ms attack) :
    engine.KingRemoved ms attack.pieceColor.opposite := by
  obtain ⟨past, future, hsplit⟩ := List.append_of_mem hmem
  have hframe := hlife.frame_turn hsplit
  have hdestination := h.unvacated hlife hoccupied hrecapture hsplit
  have hking := Piece.Is.of_kind_eq
    ((engine.sameKinds_arrivalStart ms).kind attack.destination) h.king
  rw [hlife.kingRemoved_iff]
  by_cases harrived : attack.destination ∈ (engine.turn ms attack).arrivedThisTick
  · obtain ⟨captor, hcaptor, hresult, hsquare, hcell, -⟩ :=
      hframe.captured _ hdestination harrived
    refine ⟨captor, by simp [hsplit, hcaptor], ?_, by simp [hresult], by simp [hresult]⟩
    rw [if_pos hresult, hsquare, hcell]
    simp [kingWeight, hking.2.1, hking.2.2]
  · rw [← hframe.untouched _ hdestination harrived] at hking
    have hresult := h.landed (h.valid_turn hlife hoccupied hrecapture hsplit) hking harrived
    refine ⟨attack, hmem, ?_, by simp [hresult], by simp [hresult]⟩
    rw [if_pos hresult]
    simp [kingWeight, hking.2.1, hking.2.2]

end Attack

/-! ## Every lost king is flagged -/

/-- A king and an enemy are both about to arrive on one square. -/
structure KingTie (board : Board) (rival king : Motion) : Prop where
  type : king.pieceType = .king
  color : rival.pieceColor = king.pieceColor.opposite
  square : rival.destination = king.destination
  valid : rival.Valid board
  valid_king : king.Valid board

instance (board : Board) (rival king : Motion) : Decidable (KingTie board rival king) :=
  decidable_of_iff (king.pieceType = .king ∧ rival.pieceColor = king.pieceColor.opposite ∧
      rival.destination = king.destination ∧ rival.Valid board ∧ king.Valid board)
    ⟨fun ⟨type, color, square, valid, valid_king⟩ ↦ ⟨type, color, square, valid, valid_king⟩,
      fun h ↦ ⟨h.type, h.color, h.square, h.valid, h.valid_king⟩⟩

/-- No king completes its move onto a square for which an enemy has set out before it and which the
enemy reaches in the same call. -/
def NoKingTie (engine : GameEngine) (ms : ℕ) : Prop :=
  ∀ king ∈ engine.completing ms, ∀ rival ∈ engine.completing ms, motionLess rival king = true →
    ¬ KingTie engine.board rival king

instance (engine : GameEngine) (ms : ℕ) : Decidable (engine.NoKingTie ms) :=
  inferInstanceAs (Decidable (∀ king ∈ engine.completing ms, ∀ rival ∈ engine.completing ms,
    motionLess rival king = true → ¬ KingTie engine.board rival king))

/-- In every turn that removes a king, a king is at stake before the call. -/
theorem Lifecycle.threatens_of_removesKing {engine : GameEngine} (hlife : engine.Lifecycle)
    (hoccupied : engine.Occupied) {ms : ℕ} (hrecapture : engine.NoRecapture ms)
    (htie : engine.NoKingTie ms) {color : Color} {motion : Motion}
    (hmem : motion ∈ engine.completing ms) (h : engine.RemovesKing ms color motion) :
    engine.Threatens motion := by
  obtain ⟨past, future, hsplit⟩ := List.append_of_mem hmem
  have htype := (mem_completing.1 hmem).2.1
  have hframe := hlife.frame_turn hsplit
  have hstart := engine.sameKinds_arrivalStart ms
  obtain ⟨hweight, hstale, hblocked⟩ := h
  have hturn := valid_of_ne_stale hstale
  have hvalid := hlife.valid_of_turn hoccupied hrecapture hmem hturn
  have hking : ∀ {piece : Piece}, kingWeight color piece = 1 → piece.type = .king := by
    intro piece hone
    by_contra hother
    simp [kingWeight, hother] at hone
  have hspec := engine.result_spec ms motion
  cases hresult : engine.result ms motion with
  | stale => exact absurd hresult hstale
  | blocked => exact absurd hresult hblocked
  | landed =>
    rw [if_pos hresult] at hweight
    have hfull : ((engine.turn ms motion).board.cell motion.destination).isEmpty = false := by
      simp [Piece.isEmpty, hking hweight]
    obtain ⟨henemy, harrived⟩ := enemy_of_landed hresult hfull
    have hcell := (hframe.unarrived _ harrived).resolve_right fun hempty ↦ by
      simp [hempty] at hfull
    rw [hcell] at henemy hweight
    rw [Enemy, hstart.isEmpty, hstart.color] at henemy
    exact ⟨hvalid.not_isEmpty, .inl ⟨⟨henemy.1, by rw [henemy.2, hvalid.color]⟩,
      (hstart.type _).symm.trans (hking hweight)⟩⟩
  | jumpCaptured =>
    rw [if_neg (by simp [hresult])] at hweight
    rw [hresult] at hspec
    exact ⟨hvalid.not_isEmpty,
      .inr ⟨hspec.2.2, hvalid.type.trans (hturn.type.symm.trans (hking hweight))⟩⟩
  | lostTie =>
    rw [if_neg (by simp [hresult])] at hweight
    rw [hresult] at hspec
    obtain ⟨-, henemy, -, harrived⟩ := hspec
    rcases hframe.arrived _ harrived with hempty | ⟨rival, hrival, hlanded, hsquare, his⟩
    · simp [hempty, Enemy] at henemy
    · have hcompleting : rival ∈ engine.completing ms := mem_completing_of_past hsplit hrival
      refine absurd ?_ (htie motion hmem rival hcompleting
        (hlife.motionLess_of_split hsplit hrival))
      exact
        { type := hturn.type.symm.trans (hking hweight)
          color := his.2.2.symm.trans henemy.2
          square := hsquare
          valid := hlife.valid_of_turn hoccupied hrecapture hcompleting (valid_of_landed hlanded)
          valid_king := hvalid }

/-! ## Runs -/

/-- The game-over check is sound in this call: the move it flags, if any, is a sound attack, and no
recapture misleads it. -/
def SoundVerdict (engine : GameEngine) (ms : ℕ) : Prop :=
  engine.isGameOver = false →
    ∀ attack ∈ engine.flagged ms, engine.NoRecapture ms ∧ engine.SoundAttack ms attack

instance (engine : GameEngine) (ms : ℕ) : Decidable (engine.SoundVerdict ms) :=
  inferInstanceAs (Decidable (_ → _))

/-- The game-over check is complete in this call: no recapture misleads it, and no king arrives
second on a square. -/
def CompleteVerdict (engine : GameEngine) (ms : ℕ) : Prop :=
  engine.isGameOver = false → engine.NoRecapture ms ∧ engine.NoKingTie ms

instance (engine : GameEngine) (ms : ℕ) : Decidable (engine.CompleteVerdict ms) :=
  inferInstanceAs (Decidable (_ → _))

/-- A game that ends in this call ends with the removal of a king of the losing side. -/
def DeclaresRightly (engine : GameEngine) (ms : ℕ) : Prop :=
  engine.isGameOver = false → (engine.advanceTime ms).isGameOver = true →
    ∀ winnerColor ∈ (engine.advanceTime ms).winner, engine.KingRemoved ms winnerColor.opposite

instance (engine : GameEngine) (ms : ℕ) : Decidable (engine.DeclaresRightly ms) :=
  inferInstanceAs (Decidable (_ → _ → _))

/-- With at most one king of each colour on the board, the removal of exactly one of them in this
call ends the game for the other side. -/
def LostKingEndsGame (engine : GameEngine) (ms : ℕ) : Prop :=
  engine.isGameOver = false → (∀ color, kings color engine.board ≤ 1) →
    ∀ color, engine.KingRemoved ms color → ¬ engine.KingRemoved ms color.opposite →
      (engine.advanceTime ms).isGameOver = true ∧
        (engine.advanceTime ms).winner = some color.opposite

instance (engine : GameEngine) (ms : ℕ) : Decidable (engine.LostKingEndsGame ms) :=
  inferInstanceAs (Decidable (_ → _ → _))

/-- Where the check is sound, a flagged move ends the game for its owner, and the opponent has lost
a king. -/
theorem Lifecycle.sound_flagged {engine : GameEngine} (hlife : engine.Lifecycle)
    (hoccupied : engine.Occupied) {ms : ℕ} (hover : engine.isGameOver = false)
    (hsound : engine.SoundVerdict ms) {attack : Motion} (hflag : engine.flagged ms = some attack) :
    ((engine.advanceTime ms).isGameOver = true ∧
      (engine.advanceTime ms).winner = some attack.pieceColor) ∧
      engine.KingRemoved ms attack.pieceColor.opposite := by
  obtain ⟨hrecapture, hsoundAttack⟩ := hsound hover attack hflag
  have hmem := mem_completing_of_flagged hflag
  have hverdict := verdict_advanceTime ms hover
  rw [hflag, Option.bind_some, hsoundAttack.verdict_eq (mem_completing.1 hmem).2.1] at hverdict
  exact ⟨hverdict, hlife.kingRemoved_of_soundAttack hoccupied hrecapture hmem hsoundAttack⟩

theorem Lifecycle.declaresRightly {engine : GameEngine} (hlife : engine.Lifecycle)
    (hoccupied : engine.Occupied) {ms : ℕ} (hsound : engine.SoundVerdict ms) :
    engine.DeclaresRightly ms := by
  intro hover hended winnerColor hwinner
  cases hflag : engine.flagged ms with
  | none =>
    have hverdict := verdict_advanceTime ms hover
    rw [hflag, Option.bind_none] at hverdict
    exact absurd (hended.symm.trans hverdict) (by decide)
  | some attack =>
    obtain ⟨⟨-, hdeclared⟩, hremoved⟩ := hlife.sound_flagged hoccupied hover hsound hflag
    rw [Option.mem_def, hdeclared] at hwinner
    obtain rfl := Option.some.inj hwinner
    exact hremoved

theorem Lifecycle.lostKingEndsGame {engine : GameEngine} (hlife : engine.Lifecycle)
    (hoccupied : engine.Occupied) {ms : ℕ} (hsound : engine.SoundVerdict ms)
    (hcomplete : engine.CompleteVerdict ms) : engine.LostKingEndsGame ms := by
  intro hover _ color hremoved hother
  obtain ⟨motion, hmem, hremoves⟩ := hlife.kingRemoved_iff.1 hremoved
  obtain ⟨hrecapture, htie⟩ := hcomplete hover
  have hthreatens := hlife.threatens_of_removesKing hoccupied hrecapture htie hmem hremoves
  cases hflag : engine.flagged ms with
  | none =>
    rw [flagged, List.find?_eq_none] at hflag
    exact absurd (decide_eq_true hthreatens) (hflag motion hmem)
  | some attack =>
    obtain ⟨hdeclared, hremoved'⟩ := hlife.sound_flagged hoccupied hover hsound hflag
    have hwinner : attack.pieceColor = color.opposite := by
      by_contra hne
      rw [Color.eq_opposite_of_ne hne, Color.opposite_opposite] at hremoved'
      exact hother hremoved'
    rwa [hwinner] at hdeclared

theorem lifecycle_occupied_run (before : GameEngine) {P Q : GameEngine → Op → Prop}
    (hstep : ∀ engine op, engine.Lifecycle → engine.Occupied → P engine op → Q engine op)
    {ops : List Op} (h : Transition.Along step P before.reset ops) :
    Transition.Along step Q before.reset ops :=
  Transition.Along.imp_of_invariant (I := fun engine ↦ engine.Lifecycle ∧ engine.Occupied)
    (fun engine op hinv hP ↦ ⟨⟨hinv.1.step op, hinv.2.step hinv.1 op⟩,
      hstep engine op hinv.1 hinv.2 hP⟩)
    ⟨lifecycle_reset before, fun _ hmem ↦ absurd hmem List.not_mem_nil⟩ h

/-- In a run in which the game-over check is always sound, the game ends only with the removal of
a king, and the other side is declared the winner. -/
theorem declaresRightly_of_soundVerdict (before : GameEngine) (ops : List Op)
    (h : Transition.Along step (AtAdvance SoundVerdict) before.reset ops) :
    Transition.Along step (AtAdvance DeclaresRightly) before.reset ops := by
  refine lifecycle_occupied_run before (fun engine op hlife hoccupied hsound ↦ ?_) h
  cases op with
  | advanceTime ms => exact hlife.declaresRightly hoccupied hsound
  | _ => trivial

/-- A white king and three black pieces. -/
def kingsBoard : Board where
  cells :=
    [[.of .king .white, .empty, .of .rook .black],
     [.empty, .of .knight .black, .of .king .black]]
  rectangular := by decide

/-- The black rook takes the white king, and Black wins. -/
theorem declaresRightly_rook_takes_king :
    Transition.Along step (AtAdvance DeclaresRightly) (reset { board := kingsBoard })
      [.requestMove ⟨0, 2⟩ ⟨0, 0⟩, .advanceTime 2000] :=
  declaresRightly_of_soundVerdict _ _ (by decide)

/-- The white king goes onto the airborne knight, which captures it, and White is declared the
winner. -/
theorem airborne_capture_declares_wrong_winner :
    ¬ Transition.Along step (AtAdvance DeclaresRightly) (reset { board := kingsBoard })
      [.requestMove ⟨0, 0⟩ ⟨1, 1⟩, .requestJump ⟨1, 1⟩, .advanceTime 1000] := by
  decide

/-- In a run in which the game-over check is always sound and complete, a lost king always ends the
game for the other side. -/
theorem lostKingEndsGame_of_verdicts (before : GameEngine) (ops : List Op)
    (h : Transition.Along step (AtAdvance fun engine ms ↦
      engine.SoundVerdict ms ∧ engine.CompleteVerdict ms) before.reset ops) :
    Transition.Along step (AtAdvance LostKingEndsGame) before.reset ops := by
  refine lifecycle_occupied_run before (fun engine op hlife hoccupied hsound ↦ ?_) h
  cases op with
  | advanceTime ms => exact hlife.lostKingEndsGame hoccupied hsound.1 hsound.2
  | _ => trivial

theorem lostKingEndsGame_rook_takes_king :
    Transition.Along step (AtAdvance LostKingEndsGame) (reset { board := kingsBoard })
      [.requestMove ⟨0, 2⟩ ⟨0, 0⟩, .advanceTime 2000] :=
  lostKingEndsGame_of_verdicts _ _ (by decide)

/-- The white king reaches a square right after the black rook and is removed, and the game goes
on. -/
theorem second_arrival_of_king_is_not_flagged :
    ¬ Transition.Along step (AtAdvance LostKingEndsGame) (reset { board := kingsBoard })
      [.requestMove ⟨0, 2⟩ ⟨0, 1⟩, .requestMove ⟨0, 0⟩ ⟨0, 1⟩, .advanceTime 1000] := by
  decide

end GameEngine

end KongFuChess.Engine
