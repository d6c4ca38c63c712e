import KongFuChess.Network.ServerMessages

/-!
# Game events survive the wire

Every game event that the engine publishes on a standard board is read back from its message as it
was, up to the conversion of its time stamp to 32 bits.
-/

namespace KongFuChess.Network

open Model Realtime Events Engine Protocol

namespace Protocol

/-- The keys of the game events. -/
def eventKeys : List StdString :=
  ["type".toList, "timestamp_ms".toList, "piece".toList, "from".toList, "to".toList,
    "square".toList, "captured".toList, "jumper".toList, "victim".toList, "jump_square".toList,
    "victim_from".toList, "victim_to".toList, "winner".toList]

theorem isKey_eventKeys : ∀ key ∈ eventKeys, JsonFields.IsKey key := by decide

/-- A text that can be sent as a value: it needs no escapes and is no key. -/
def Sendable (value : StdString) : Prop := Plain value ∧ value ∉ eventKeys

instance (value : StdString) : Decidable (Sendable value) := inferInstanceAs (Decidable (_ ∧ _))

theorem sendable_pieceLabel (type : PieceType) (color : Color) :
    Sendable (MoveLog.pieceLabel type color) := by
  cases type <;> cases color <;> decide

theorem sendable_positionToAlgebraic {pos : Position} (h : Io.OnStandardBoard pos) :
    Sendable (Io.positionToAlgebraic pos) :=
  Io.onStandardBoard_induction (P := fun pos ↦ Sendable (Io.positionToAlgebraic pos)) (by decide) h

theorem sendable_colorLabel (color : Color) : Sendable (colorLabel color) := by
  cases color <;> decide

/-- Fields of an event message. -/
structure EventFields (fields : JsonFields) : Prop where
  keys : ∀ field ∈ fields, field.1 ∈ eventKeys
  values : ∀ field ∈ fields, ∀ value, field.2 = .text value → Sendable value

namespace EventFields

variable {fields : JsonFields} (h : EventFields fields)
include h

theorem allPlain : fields.AllPlain := by
  intro field hmem
  refine ⟨(isKey_eventKeys _ (h.keys field hmem)).1, ?_⟩
  split
  · rename_i value heq
    exact (h.values field hmem value heq).1
  · trivial

theorem avoids {key : StdString} (hkey : key ∈ eventKeys) : fields.Avoids key :=
  fun field hmem heq ↦ (h.values field hmem key heq).2 hkey

theorem extractString {key value : StdString} (hkey : key ∈ eventKeys)
    (hlookup : fields.lookup key = some (.text value)) :
    extractJsonString (fields.write '{') key = some value :=
  JsonFields.extractJsonString_write (isKey_eventKeys key hkey) h.allPlain (h.avoids hkey) hlookup

theorem extractString_none {key : StdString} (hkey : key ∈ eventKeys)
    (hlookup : fields.lookup key = none) : extractJsonString (fields.write '{') key = none :=
  JsonFields.extractJsonString_write_none (isKey_eventKeys key hkey) h.allPlain (h.avoids hkey)
    hlookup

theorem extractInt {key : StdString} {value : ℤ} (hkey : key ∈ eventKeys)
    (hlookup : fields.lookup key = some (.number value)) :
    extractJsonInt (fields.write '{') key =
      some (toInt (max (-2 ^ 63) (min (2 ^ 63 - 1) value))) :=
  JsonFields.extractJsonInt_write (isKey_eventKeys key hkey) h.allPlain (h.avoids hkey) hlookup

theorem parseType {name : StdString} {type : ServerMessageType}
    (hlookup : fields.lookup "type".toList = some (.text name))
    (htype : serverMessageTypes.lookup name = some type) :
    parseServerMessageType (fields.write '{') = type := by
  rw [parseServerMessageType, h.extractString (by decide) hlookup]
  simp [htype]

end EventFields

theorem requirePieceLabel_pieceLabel {type : PieceType} (h : type ≠ .empty) (color : Color) :
    requirePieceLabel (MoveLog.pieceLabel type color) = some (type, color) := by
  cases type <;> cases color <;> first | exact absurd rfl h | rfl

theorem requireSquare_positionToAlgebraic {pos : Position} (h : Io.OnStandardBoard pos) :
    requireSquare (Io.positionToAlgebraic pos) = some pos := by
  have hrow : ¬ pos.row < 0 := not_lt.2 h.1
  rw [requireSquare, Io.algebraicToPosition_positionToAlgebraic h]
  exact if_neg hrow

/-- The conversion of a time stamp by a reader: to `long`, and from there to `int`. -/
def readTimestamp (timestampMs : ℤ) : ℤ := toInt (max (-2 ^ 63) (min (2 ^ 63 - 1) timestampMs))

/-! ## The fields of each event -/

/-- The fields that all events of the board begin with. -/
def headFields (name : StdString) (timestampMs : ℤ) : JsonFields :=
  [("type".toList, .text name), ("timestamp_ms".toList, .number timestampMs)]

def moveStartedFields (event : MoveStartedEvent) : JsonFields :=
  headFields "move_started".toList event.timestampMs ++
    [("piece".toList, .text (MoveLog.pieceLabel event.pieceType event.pieceColor)),
      ("from".toList, .text (Io.positionToAlgebraic event.fromPos)),
      ("to".toList, .text (Io.positionToAlgebraic event.toPos))]

def jumpStartedFields (event : JumpStartedEvent) : JsonFields :=
  headFields "jump_started".toList event.timestampMs ++
    [("piece".toList, .text (MoveLog.pieceLabel event.pieceType event.pieceColor)),
      ("square".toList, .text (Io.positionToAlgebraic event.square))]

def completedMoveFields (event : CompletedMoveEvent) (captured : JsonFields) : JsonFields :=
  headFields "move_completed".toList event.timestampMs ++
    ([("piece".toList, .text (MoveLog.pieceLabel event.pieceType event.pieceColor)),
      ("from".toList, .text (Io.positionToAlgebraic event.fromPos)),
      ("to".toList, .text (Io.positionToAlgebraic event.toPos))] ++ captured)

def capturedFields (event : CompletedMoveEvent) : JsonFields :=
  [("captured".toList, .text (MoveLog.pieceLabel event.capturedType event.capturedColor))]

def jumpCaptureFields (event : JumpCaptureEvent) : JsonFields :=
  headFields "jump_capture".toList event.timestampMs ++
    [("jumper".toList, .text (MoveLog.pieceLabel event.jumperType event.jumperColor)),
      ("victim".toList, .text (MoveLog.pieceLabel event.victimType event.victimColor)),
      ("jump_square".toList, .text (Io.positionToAlgebraic event.jumpSquare)),
      ("victim_from".toList, .text (Io.positionToAlgebraic event.victimFrom)),
      ("victim_to".toList, .text (Io.positionToAlgebraic event.victimTo))]

def gameEndedFields (event : GameEnded) : JsonFields :=
  [("type".toList, .text "game_ended".toList),
    ("winner".toList, .text (colorLabel event.winner))]

theorem serializeMoveStarted_eq (event : MoveStartedEvent) :
    serializeMoveStarted event = (moveStartedFields event).write '{' := by
  unfold serializeMoveStarted
  simp only [List.append_assoc]
  rfl

theorem serializeJumpStarted_eq (event : JumpStartedEvent) :
    serializeJumpStarted event = (jumpStartedFields event).write '{' := by
  unfold serializeJumpStarted
  simp only [List.append_assoc]
  rfl

theorem serializeCompletedMove_eq (event : CompletedMoveEvent) :
    serializeCompletedMove event =
      (completedMoveFields event
        (if event.capturedType ≠ .empty then capturedFields event else [])).write '{' := by
  unfold serializeCompletedMove
  split
  · simp only [List.append_assoc]
    rfl
  · simp only [List.append_assoc]
    rfl

theorem serializeJumpCapture_eq (event : JumpCaptureEvent) :
    serializeJumpCapture event = (jumpCaptureFields event).write '{' := by
  unfold serializeJumpCapture
  simp only [List.append_assoc]
  rfl

theorem serializeGameEnded_eq (event : GameEnded) :
    serializeGameEnded event = (gameEndedFields event).write '{' := by
  unfold serializeGameEnded
  simp only [List.append_assoc]
  rfl

/-! ## Reading the events back -/

theorem parse_serializeMoveStarted {event : MoveStartedEvent} (htype : event.pieceType ≠ .empty)
    (hfrom : Io.OnStandardBoard event.fromPos) (hto : Io.OnStandardBoard event.toPos) :
    parseServerGameEvent (serializeMoveStarted event) =
      some (.moveStarted { event with timestampMs := readTimestamp event.timestampMs }) := by
  have hfields : EventFields (moveStartedFields event) := by
    have hlabel := sendable_pieceLabel event.pieceType event.pieceColor
    have hsquare := sendable_positionToAlgebraic hfrom
    have hsquare' := sendable_positionToAlgebraic hto
    constructor
    · simp [moveStartedFields, headFields, eventKeys]
    · simp [moveStartedFields, headFields, hlabel, hsquare, hsquare']
      decide
  rw [serializeMoveStarted_eq, parseServerGameEvent, hfields.parseType rfl rfl]
  simp only [parseMoveStarted]
  rw [hfields.extractInt (by decide) rfl, hfields.extractString (by decide) rfl,
    hfields.extractString (by decide) rfl, hfields.extractString (by decide) rfl]
  simp [requirePieceLabel_pieceLabel htype, requireSquare_positionToAlgebraic hfrom,
    requireSquare_positionToAlgebraic hto, readTimestamp]

theorem parse_serializeJumpStarted {event : JumpStartedEvent} (htype : event.pieceType ≠ .empty)
    (hsquare : Io.OnStandardBoard event.square) :
    parseServerGameEvent (serializeJumpStarted event) =
      some (.jumpStarted { event with timestampMs := readTimestamp event.timestampMs }) := by
  have hfields : EventFields (jumpStartedFields event) := by
    have hlabel := sendable_pieceLabel event.pieceType event.pieceColor
    have hsent := sendable_positionToAlgebraic hsquare
    constructor
    · simp [jumpStartedFields, headFields, eventKeys]
    · simp [jumpStartedFields, headFields, hlabel, hsent]
      decide
  rw [serializeJumpStarted_eq, parseServerGameEvent, hfields.parseType rfl rfl]
  simp only [parseJumpStarted]
  rw [hfields.extractInt (by decide) rfl, hfields.extractString (by decide) rfl,
    hfields.extractString (by decide) rfl]
  simp [requirePieceLabel_pieceLabel htype, requireSquare_positionToAlgebraic hsquare,
    readTimestamp]

theorem eventFields_completedMove {event : CompletedMoveEvent}
    (hfrom : Io.OnStandardBoard event.fromPos) (hto : Io.OnStandardBoard event.toPos)
    {captured : JsonFields} (hcaptured : captured = capturedFields event ∨ captured = []) :
    EventFields (completedMoveFields event captured) := by
  have hlabel := sendable_pieceLabel event.pieceType event.pieceColor
  have hlabel' := sendable_pieceLabel event.capturedType event.capturedColor
  have hsquare := sendable_positionToAlgebraic hfrom
  have hsquare' := sendable_positionToAlgebraic hto
  rcases hcaptured with rfl | rfl
  · constructor
    · simp [completedMoveFields, capturedFields, headFields, eventKeys]
    · simp [completedMoveFields, capturedFields, headFields, hlabel, hlabel', hsquare, hsquare']
      decide
  · constructor
    · simp [completedMoveFields, headFields, eventKeys]
    · simp [completedMoveFields, headFields, hlabel, hsquare, hsquare']
      decide

theorem parse_serializeCompletedMove {event : CompletedMoveEvent}
    (htype : event.pieceType ≠ .empty) (hfrom : Io.OnStandardBoard event.fromPos)
    (hto : Io.OnStandardBoard event.toPos)
    (hcaptured : event.capturedType = .empty → event.capturedColor = .white) :
    parseServerGameEvent (serializeCompletedMove event) =
      some (.completedMove { event with timestampMs := readTimestamp event.timestampMs }) := by
  rw [serializeCompletedMove_eq]
  by_cases hnone : event.capturedType = .empty
  · rw [if_neg (not_not.2 hnone)]
    have hfields := eventFields_completedMove hfrom hto (.inr rfl)
    rw [parseServerGameEvent, hfields.parseType rfl rfl]
    simp only [parseCompletedMove]
    rw [hfields.extractInt (by decide) rfl, hfields.extractString (by decide) rfl,
      hfields.extractString (by decide) rfl, hfields.extractString (by decide) rfl,
      hfields.extractString_none (by decide) rfl]
    simp [requirePieceLabel_pieceLabel htype, requireSquare_positionToAlgebraic hfrom,
      requireSquare_positionToAlgebraic hto, readTimestamp, hnone.symm, (hcaptured hnone).symm]
  · rw [if_pos hnone]
    have hfields := eventFields_completedMove hfrom hto (.inl rfl)
    have hlabel : parsePieceLabel (MoveLog.pieceLabel event.capturedType event.capturedColor)
        .empty .white = (true, event.capturedType, event.capturedColor) := by
      have hrequired := requirePieceLabel_pieceLabel hnone event.capturedColor
      rw [requirePieceLabel] at hrequired
      split at hrequired
      · simp_all
      · simp at hrequired
    rw [parseServerGameEvent, hfields.parseType rfl rfl]
    simp only [parseCompletedMove]
    rw [hfields.extractInt (by decide) rfl, hfields.extractString (by decide) rfl,
      hfields.extractString (by decide) rfl, hfields.extractString (by decide) rfl,
      hfields.extractString (by decide) rfl]
    simp [requirePieceLabel_pieceLabel htype, requireSquare_positionToAlgebraic hfrom,
      requireSquare_positionToAlgebraic hto, readTimestamp, hlabel]

theorem parse_serializeJumpCapture {event : JumpCaptureEvent} (hjumper : event.jumperType ≠ .empty)
    (hvictim : event.victimType ≠ .empty) (hjump : Io.OnStandardBoard event.jumpSquare)
    (hfrom : Io.OnStandardBoard event.victimFrom) (hto : Io.OnStandardBoard event.victimTo) :
    parseServerGameEvent (serializeJumpCapture event) =
      some (.jumpCapture { event with timestampMs := readTimestamp event.timestampMs }) := by
  have hfields : EventFields (jumpCaptureFields event) := by
    have hlabel := sendable_pieceLabel event.jumperType event.jumperColor
    have hlabel' := sendable_pieceLabel event.victimType event.victimColor
    have hsquares := And.intro (sendable_positionToAlgebraic hjump)
      (And.intro (sendable_positionToAlgebraic hfrom) (sendable_positionToAlgebraic hto))
    constructor
    · simp [jumpCaptureFields, headFields, eventKeys]
    · simp [jumpCaptureFields, headFields, hlabel, hlabel', hsquares]
      decide
  rw [serializeJumpCapture_eq, parseServerGameEvent, hfields.parseType rfl rfl]
  simp only [parseJumpCapture]
  rw [hfields.extractInt (by decide) rfl, hfields.extractString (by decide) rfl,
    hfields.extractString (by decide) rfl, hfields.extractString (by decide) rfl,
    hfields.extractString (by decide) rfl, hfields.extractString (by decide) rfl]
  simp [requirePieceLabel_pieceLabel hjumper, requirePieceLabel_pieceLabel hvictim,
    requireSquare_positionToAlgebraic hjump, requireSquare_positionToAlgebraic hfrom,
    requireSquare_positionToAlgebraic hto, readTimestamp]

theorem parse_serializeGameEnded (event : GameEnded) :
    parseServerGameEvent (serializeGameEnded event) = some (.gameEnded event) := by
  have hfields : EventFields (gameEndedFields event) := by
    have hlabel := sendable_colorLabel event.winner
    constructor
    · simp [gameEndedFields, eventKeys]
    · simp [gameEndedFields, hlabel]
      decide
  have hcolor : colorFromLabel (colorLabel event.winner) = event.winner := by
    cases event.winner <;> decide
  rw [serializeGameEnded_eq, parseServerGameEvent, hfields.parseType rfl rfl]
  simp only
  rw [hfields.extractString (by decide) rfl]
  simp [hcolor]

end Protocol

open Protocol

/-- An event whose squares and pieces have names. -/
def Nameable : GameEvent → Prop
  | .gameStarted _ => False
  | .moveStarted event =>
    event.pieceType ≠ .empty ∧ Io.OnStandardBoard event.fromPos ∧ Io.OnStandardBoard event.toPos
  | .jumpStarted event => event.pieceType ≠ .empty ∧ Io.OnStandardBoard event.square
  | .completedMove event =>
    event.pieceType ≠ .empty ∧ Io.OnStandardBoard event.fromPos ∧
      Io.OnStandardBoard event.toPos ∧
      (event.capturedType = .empty → event.capturedColor = .white)
  | .jumpCapture event =>
    event.jumperType ≠ .empty ∧ event.victimType ≠ .empty ∧ Io.OnStandardBoard event.jumpSquare ∧
      Io.OnStandardBoard event.victimFrom ∧ Io.OnStandardBoard event.victimTo
  | .gameEnded _ => True

/-- The event as a reader receives it. -/
def received : GameEvent → GameEvent
  | .moveStarted event =>
    .moveStarted { event with timestampMs := readTimestamp event.timestampMs }
  | .jumpStarted event =>
    .jumpStarted { event with timestampMs := readTimestamp event.timestampMs }
  | .completedMove event =>
    .completedMove { event with timestampMs := readTimestamp event.timestampMs }
  | .jumpCapture event =>
    .jumpCapture { event with timestampMs := readTimestamp event.timestampMs }
  | event => event

theorem parse_serialize {event : GameEvent} (h : Nameable event) :
    parseServerGameEvent (serializeServerEvent event) = some (received event) := by
  cases event with
  | gameStarted event => exact h.elim
  | moveStarted event => exact parse_serializeMoveStarted h.1 h.2.1 h.2.2
  | jumpStarted event => exact parse_serializeJumpStarted h.1 h.2
  | completedMove event => exact parse_serializeCompletedMove h.1 h.2.1 h.2.2.1 h.2.2.2
  | jumpCapture event => exact parse_serializeJumpCapture h.1 h.2.1 h.2.2.1 h.2.2.2.1 h.2.2.2.2
  | gameEnded event => exact parse_serializeGameEnded event

/-- When the engine made the event, if it is an event of the board. -/
def timestampOf : GameEvent → Option ℤ
  | .moveStarted event => some event.timestampMs
  | .jumpStarted event => some event.timestampMs
  | .completedMove event => some event.timestampMs
  | .jumpCapture event => some event.timestampMs
  | .gameStarted _ | .gameEnded _ => none

theorem received_of_inIntRange {event : GameEvent}
    (h : ∀ timestampMs ∈ timestampOf event, InIntRange timestampMs) : received event = event := by
  have hread : ∀ timestampMs ∈ timestampOf event, readTimestamp timestampMs = timestampMs :=
    fun timestampMs hmem ↦ toInt_of_inIntRange (h timestampMs hmem)
  cases event with
  | moveStarted event | jumpStarted event | completedMove event | jumpCapture event =>
    rw [received, hread event.timestampMs rfl]
  | gameStarted event | gameEnded event => rfl

/-- A reader receives an event with a time stamp of 32 bits as it was sent. -/
theorem parseServerGameEvent_serializeServerEvent {event : GameEvent} (h : Nameable event)
    (htimestamp : ∀ timestampMs ∈ timestampOf event, InIntRange timestampMs) :
    parseServerGameEvent (serializeServerEvent event) = some event := by
  rw [parse_serialize h, received_of_inIntRange htimestamp]

theorem parseServerGameEvent_of_pawn_takes_queen :
    parseServerGameEvent (serializeServerEvent (.completedMove
        { timestampMs := -1
          pieceType := .pawn
          pieceColor := .white
          fromPos := ⟨6, 4⟩
          toPos := ⟨5, 3⟩
          capturedType := .queen
          capturedColor := .black })) =
      some (.completedMove
        { timestampMs := -1
          pieceType := .pawn
          pieceColor := .white
          fromPos := ⟨6, 4⟩
          toPos := ⟨5, 3⟩
          capturedType := .queen
          capturedColor := .black }) := by
  apply parseServerGameEvent_serializeServerEvent
  · exact ⟨by decide, by decide, by decide, by decide⟩
  · intro timestampMs hmem
    cases hmem
    decide

end KongFuChess.Network
