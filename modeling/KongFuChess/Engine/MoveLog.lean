import KongFuChess.Io.Algebraic
import KongFuChess.Realtime.Arbiter

/-!
# The move log

The log keeps one text line for every resolution of the arbiter and the two capture scores.
-/

namespace KongFuChess.Engine

open Model Realtime

structure MoveLogEntry where
  timestampMs : ℤ
  text : StdString
deriving DecidableEq, Repr

structure MoveLog where
  entries : List MoveLogEntry := []
  whiteScore : ℤ := 0
  blackScore : ℤ := 0
deriving DecidableEq, Repr

namespace MoveLog

def clear (_ : MoveLog) : MoveLog := { entries := [], whiteScore := 0, blackScore := 0 }

def captureValue : PieceType → ℤ
  | .pawn => 1
  | .knight => 3
  | .bishop => 3
  | .rook => 5
  | .queen => 9
  | .king => 0
  | .empty => 0

/-- A number printed to a stream of width two filled with zeros. -/
def padTwo (value : ℤ) : StdString := (Io.decimal value).leftpad 2 '0'

def formatElapsedMMSS (timestampMs : ℤ) : StdString :=
  let totalSeconds := timestampMs.tdiv 1000
  let minutes := totalSeconds.tdiv 60
  let seconds := totalSeconds.tmod 60
  padTwo minutes ++ [':'] ++ padTwo seconds

def pieceLabel (type : PieceType) (color : Color) : StdString :=
  let colorChar := if color = .white then 'w' else 'b'
  let typeChar :=
    match type with
    | .king => 'K'
    | .queen => 'Q'
    | .rook => 'R'
    | .bishop => 'B'
    | .knight => 'N'
    | .pawn => 'P'
    | .empty => '?'
  [colorChar, typeChar]

def addCaptureScore (log : MoveLog) (scorer : Color) (victimType : PieceType) : MoveLog :=
  let points := captureValue victimType
  if points ≤ 0 then log
  else if scorer = .white then { log with whiteScore := log.whiteScore + points }
  else { log with blackScore := log.blackScore + points }

def completedMoveText (event : CompletedMoveEvent) : StdString :=
  formatElapsedMMSS event.timestampMs ++ [' '] ++
    pieceLabel event.pieceType event.pieceColor ++ [' '] ++
    Io.positionToAlgebraic event.fromPos ++ "->".toList ++ Io.positionToAlgebraic event.toPos ++
    if event.capturedType ≠ .empty then
      " x".toList ++ pieceLabel event.capturedType event.capturedColor
    else []

def recordCompletedMove (log : MoveLog) (event : CompletedMoveEvent) : MoveLog :=
  let scored :=
    if event.capturedType ≠ .empty then log.addCaptureScore event.pieceColor event.capturedType
    else log
  { scored with
    entries := scored.entries ++ [⟨event.timestampMs, completedMoveText event⟩] }

def jumpCaptureText (event : JumpCaptureEvent) : StdString :=
  formatElapsedMMSS event.timestampMs ++ [' '] ++
    pieceLabel event.jumperType event.jumperColor ++ " jump x ".toList ++
    pieceLabel event.victimType event.victimColor ++ [' '] ++
    Io.positionToAlgebraic event.victimFrom ++ "->".toList ++
    Io.positionToAlgebraic event.victimTo ++ " @".toList ++
    Io.positionToAlgebraic event.jumpSquare

def recordJumpCapture (log : MoveLog) (event : JumpCaptureEvent) : MoveLog :=
  let scored := log.addCaptureScore event.jumperColor event.victimType
  { scored with
    entries := scored.entries ++ [⟨event.timestampMs, jumpCaptureText event⟩] }

/-- The score of one side. -/
def score (log : MoveLog) : Color → ℤ
  | .white => log.whiteScore
  | .black => log.blackScore

theorem captureValue_nonneg (type : PieceType) : 0 ≤ captureValue type := by
  cases type <;> decide

@[simp]
theorem entries_addCaptureScore (log : MoveLog) (scorer : Color) (victimType : PieceType) :
    (log.addCaptureScore scorer victimType).entries = log.entries := by
  simp only [addCaptureScore]
  split
  · rfl
  · split <;> rfl

/-- Scoring adds the value of the victim to the scorer and nothing to the opponent. -/
theorem score_addCaptureScore (log : MoveLog) (scorer : Color) (victimType : PieceType)
    (color : Color) :
    (log.addCaptureScore scorer victimType).score color =
      log.score color + if scorer = color then captureValue victimType else 0 := by
  have hnonneg := captureValue_nonneg victimType
  simp only [addCaptureScore]
  split
  · have hzero : captureValue victimType = 0 := by omega
    simp [hzero]
  · cases scorer <;> cases color <;> simp [score]

/-! ## Recording resolutions -/

def record (log : MoveLog) : MoveResolution → MoveLog
  | .completedMove completed => log.recordCompletedMove completed
  | .jumpCapture jumpCapture => log.recordJumpCapture jumpCapture

/-- The line that a resolution adds to the log. -/
def entryOf : MoveResolution → MoveLogEntry
  | .completedMove completed => ⟨completed.timestampMs, completedMoveText completed⟩
  | .jumpCapture jumpCapture => ⟨jumpCapture.timestampMs, jumpCaptureText jumpCapture⟩

/-- The points that a resolution scores for a side. -/
def pointsOf (color : Color) : MoveResolution → ℤ
  | .completedMove completed =>
    if completed.pieceColor = color then captureValue completed.capturedType else 0
  | .jumpCapture jumpCapture =>
    if jumpCapture.jumperColor = color then captureValue jumpCapture.victimType else 0

theorem entries_record (log : MoveLog) (resolution : MoveResolution) :
    (log.record resolution).entries = log.entries ++ [entryOf resolution] := by
  cases resolution with
  | completedMove completed =>
    simp only [record, recordCompletedMove, entryOf]
    split <;> simp
  | jumpCapture jumpCapture => simp [record, recordJumpCapture, entryOf]

theorem score_record (log : MoveLog) (resolution : MoveResolution) (color : Color) :
    (log.record resolution).score color = log.score color + pointsOf color resolution := by
  have hscore : ∀ (log : MoveLog) entries,
      { log with entries := entries }.score color = log.score color := by
    intro log entries
    cases color <;> rfl
  cases resolution with
  | completedMove completed =>
    simp only [record, recordCompletedMove, hscore]
    by_cases hcaptured : completed.capturedType = .empty
    · simp [hcaptured, pointsOf, captureValue]
    · rw [if_pos hcaptured, score_addCaptureScore, pointsOf]
  | jumpCapture jumpCapture =>
    simp only [record, recordJumpCapture, hscore]
    rw [score_addCaptureScore, pointsOf]

theorem entries_foldl_record (resolutions : List MoveResolution) (log : MoveLog) :
    (resolutions.foldl record log).entries = log.entries ++ resolutions.map entryOf := by
  induction resolutions generalizing log with
  | nil => simp
  | cons resolution rest ih =>
    rw [List.foldl_cons, ih, entries_record, List.map_cons, List.append_assoc,
      List.singleton_append]

theorem score_foldl_record (resolutions : List MoveResolution) (log : MoveLog) (color : Color) :
    (resolutions.foldl record log).score color =
      log.score color + (resolutions.map (pointsOf color)).sum := by
  induction resolutions generalizing log with
  | nil => simp
  | cons resolution rest ih =>
    rw [List.foldl_cons, ih, score_record, List.map_cons, List.sum_cons, add_assoc]

end MoveLog

end KongFuChess.Engine
