import KongFuChess.Network.Escapes

/-!
# The lobby of a client

The lobby shows the state of the search for an opponent and leaves its loop when a game starts. The
messages of the server are kept until the next frame, which applies them in their order. The rating
of the player, which is only drawn, is left out.
-/

namespace KongFuChess.Session

open Model Events Network

structure MatchInfo where
  color : Color := .white
  opponent : StdString := []
  port : ℤ := 0
  whiteUser : StdString := []
  blackUser : StdString := []
deriving DecidableEq, Repr

inductive LobbyStatus
  | idle
  | searching
  | matched
  | error
deriving DecidableEq, Repr

structure LobbyButtonRect where
  x : ℤ := 0
  y : ℤ := 0
  width : ℤ := 0
  height : ℤ := 0
deriving DecidableEq, Repr

def LobbyButtonRect.contains (rect : LobbyButtonRect) (px py : ℤ) : Bool :=
  px ≥ rect.x && px < rect.x + rect.width && py ≥ rect.y && py < rect.y + rect.height

structure LobbyState where
  status : LobbyStatus := .idle
  username : StdString
  statusText : StdString := "Press Play to find a match".toList
  playButton : LobbyButtonRect := {}
  playEnabled : Bool := true
deriving DecidableEq, Repr

namespace LobbyConfig

def kPlayButtonX : ℤ := 140

def kPlayButtonY : ℤ := 220

def kPlayButtonWidth : ℤ := 200

def kPlayButtonHeight : ℤ := 48

end LobbyConfig

structure ShellLobby where
  state : LobbyState
  pendingMatch : Option MatchInfo := none
  exitWithMatch : Bool := false
  pendingMessages : List StdString := []
deriving DecidableEq, Repr

namespace ShellLobby

/-- The lobby of a player. -/
def ofUsername (username : StdString) : ShellLobby :=
  { state :=
      { username := username
        playButton :=
          { x := LobbyConfig.kPlayButtonX
            y := LobbyConfig.kPlayButtonY
            width := LobbyConfig.kPlayButtonWidth
            height := LobbyConfig.kPlayButtonHeight } } }

def handleServerMessage (lobby : ShellLobby) (json : StdString) : ShellLobby :=
  { lobby with pendingMessages := lobby.pendingMessages ++ [json] }

/-- The match of a lobby that has not been told of one before. -/
def resumedMatch (lobby : ShellLobby) (started : GameStarted) : MatchInfo :=
  let color := if started.whiteUser = lobby.state.username then Color.white else .black
  { color := color
    opponent := if color = .white then started.blackUser else started.whiteUser
    port := started.port }

def applyServerMessage (lobby : ShellLobby) (json : StdString) : ShellLobby :=
  match parseServerMessageType json with
  | .queueJoined =>
    { lobby with
      state :=
        { lobby.state with
          status := .searching
          statusText := "Searching for opponent...".toList
          playEnabled := false } }
  | .queueLeft =>
    { lobby with
      state :=
        { lobby.state with
          status := .idle
          statusText := "Press Play to find a match".toList
          playEnabled := true } }
  | .queueTimeout =>
    { lobby with
      state :=
        { lobby.state with
          status := .idle
          statusText :=
            match parseQueueTimeoutMessage json with
            | some message => message
            | none => "No opponent found within 60 seconds.".toList
          playEnabled := true } }
  | .matchFound =>
    match parseMatchFoundMessage json with
    | none => lobby
    | some found =>
      { lobby with
        pendingMatch :=
          some { color := found.color, opponent := found.opponent, port := found.port }
        state :=
          { lobby.state with
            status := .matched
            statusText := "Matched! Starting game...".toList
            playEnabled := false } }
  | .gameStarted =>
    match parseGameStartedMessage json with
    | none => lobby
    | some started =>
      { lobby with
        pendingMatch :=
          some
            { lobby.pendingMatch.getD (lobby.resumedMatch started) with
              whiteUser := started.whiteUser
              blackUser := started.blackUser
              port := started.port }
        exitWithMatch := true
        state :=
          { lobby.state with
            status := .matched
            statusText := "Reconnected! Resuming game...".toList
            playEnabled := false } }
  | .error =>
    { lobby with
      state :=
        { lobby.state with
          status := .error
          statusText := "Failed to join queue".toList
          playEnabled := true } }
  | _ => lobby

def drainPendingMessages (lobby : ShellLobby) : ShellLobby :=
  lobby.pendingMessages.foldl applyServerMessage { lobby with pendingMessages := [] }

/-- One turn of the loop of `run`; the lobby leaves the loop with the result of `run`. -/
def frame (lobby : ShellLobby) (escape : Bool) : ShellLobby × Option (Option MatchInfo) :=
  let lobby := lobby.drainPendingMessages
  if lobby.exitWithMatch then (lobby, some lobby.pendingMatch)
  else if escape then (lobby, some none)
  else (lobby, none)

/-- `sent` says whether the client could send the command. -/
def onPlayClicked (lobby : ShellLobby) (sent : Bool) : ShellLobby :=
  if !lobby.state.playEnabled || lobby.state.status = .searching then lobby
  else if sent then
    { lobby with
      state :=
        { lobby.state with
          status := .searching
          statusText := "Searching for opponent...".toList
          playEnabled := false } }
  else
    { lobby with
      state :=
        { lobby.state with
          status := .error
          statusText := "Failed to join queue".toList
          playEnabled := true } }

def containsPlayButton (lobby : ShellLobby) (x y : ℤ) : Bool :=
  lobby.state.playEnabled && lobby.state.playButton.contains x y

def handleMouseClick (lobby : ShellLobby) (x y : ℤ) (sent : Bool) : ShellLobby :=
  if lobby.containsPlayButton x y then lobby.onPlayClicked sent else lobby

/-! ## What a message does -/

section Apply

variable {lobby : ShellLobby} {json : StdString}

theorem username_applyServerMessage :
    (lobby.applyServerMessage json).state.username = lobby.state.username := by
  unfold applyServerMessage
  split
  case h_4 | h_5 => split <;> rfl
  all_goals rfl

theorem pendingMessages_applyServerMessage :
    (lobby.applyServerMessage json).pendingMessages = lobby.pendingMessages := by
  unfold applyServerMessage
  split
  case h_4 | h_5 => split <;> rfl
  all_goals rfl

theorem type_of_parseMatchFoundMessage {found : MatchFoundMessage}
    (h : parseMatchFoundMessage json = some found) :
    parseServerMessageType json = .matchFound := by
  unfold parseMatchFoundMessage at h
  split at h
  · exact absurd h nofun
  · exact not_not.1 ‹_›

theorem type_of_parseGameStartedMessage {started : GameStarted}
    (h : parseGameStartedMessage json = some started) :
    parseServerMessageType json = .gameStarted := by
  unfold parseGameStartedMessage at h
  split at h
  · exact absurd h nofun
  · exact not_not.1 ‹_›

/-- A message tells of a match that was found, or of a game that has started, or of neither. -/
theorem applyServerMessage_cases (lobby : ShellLobby) (json : StdString) :
    (∃ found, parseMatchFoundMessage json = some found ∧ parseGameStartedMessage json = none ∧
        (lobby.applyServerMessage json).exitWithMatch = lobby.exitWithMatch ∧
        (lobby.applyServerMessage json).pendingMatch =
          some { color := found.color, opponent := found.opponent, port := found.port }) ∨
      (∃ started, parseGameStartedMessage json = some started ∧
        (lobby.applyServerMessage json).exitWithMatch = true ∧
        (lobby.applyServerMessage json).pendingMatch =
          some
            { lobby.pendingMatch.getD (lobby.resumedMatch started) with
              whiteUser := started.whiteUser
              blackUser := started.blackUser
              port := started.port }) ∨
      (parseGameStartedMessage json = none ∧
        (lobby.applyServerMessage json).exitWithMatch = lobby.exitWithMatch ∧
        (lobby.applyServerMessage json).pendingMatch = lobby.pendingMatch) := by
  cases hstarted : parseGameStartedMessage json with
  | some started =>
    refine .inr (.inl ⟨started, rfl, ?_⟩)
    rw [applyServerMessage, type_of_parseGameStartedMessage hstarted]
    simp only [hstarted, and_self]
  | none =>
    cases hfound : parseMatchFoundMessage json with
    | some found =>
      refine .inl ⟨found, rfl, rfl, ?_⟩
      rw [applyServerMessage, type_of_parseMatchFoundMessage hfound]
      simp only [hfound, and_self]
    | none =>
      refine .inr (.inr ⟨rfl, ?_⟩)
      unfold applyServerMessage
      split
      case h_4 => simp only [hfound, and_self]
      case h_5 => simp only [hstarted, and_self]
      all_goals exact ⟨rfl, rfl⟩

/-- The messages are handed over as a whole. -/
theorem drainPendingMessages_keeps (lobby : ShellLobby) :
    lobby.drainPendingMessages.pendingMessages = [] ∧
      lobby.drainPendingMessages.state.username = lobby.state.username := by
  have hfold : ∀ (messages : List StdString) (drained : ShellLobby),
      (messages.foldl applyServerMessage drained).pendingMessages = drained.pendingMessages ∧
        (messages.foldl applyServerMessage drained).state.username = drained.state.username := by
    intro messages
    induction messages with
    | nil => exact fun _ ↦ ⟨rfl, rfl⟩
    | cons json messages ih =>
      intro drained
      obtain ⟨hpending, husername⟩ := ih (drained.applyServerMessage json)
      exact ⟨hpending.trans pendingMessages_applyServerMessage,
        husername.trans username_applyServerMessage⟩
  exact hfold lobby.pendingMessages { lobby with pendingMessages := [] }

/-- A click changes what the lobby shows. -/
theorem handleMouseClick_cases (lobby : ShellLobby) (x y : ℤ) (sent : Bool) :
    ∃ state, lobby.handleMouseClick x y sent = { lobby with state := state } ∧
      state.username = lobby.state.username := by
  unfold handleMouseClick onPlayClicked
  split
  · split
    · exact ⟨_, rfl, rfl⟩
    · split
      · exact ⟨_, rfl, rfl⟩
      · exact ⟨_, rfl, rfl⟩
  · exact ⟨_, rfl, rfl⟩

end Apply

end ShellLobby

end KongFuChess.Session
