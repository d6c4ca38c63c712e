import KongFuChess.Engine.GameEngine
import KongFuChess.Library.Table
import KongFuChess.Online.MatchmakingQueue

/-!
# The session manager

Who is logged in on which connection, and which connection holds which colour. The program guards
every call by one mutex, so a call is one step here.
-/

namespace KongFuChess.Session

open Model Events Matchmaking

inductive AuthResult
  | accepted
  | unknownUser
  | slotFull
  | alreadyConnected
deriving DecidableEq, Repr

inductive SessionPhase
  | lobby
  | inGame
deriving DecidableEq, Repr

def kMaxPlayers : ℕ := 2

structure SessionManager where
  phase : SessionPhase := .lobby
  fixedRoster : Bool := false
  whiteUsername : StdString := []
  blackUsername : StdString := []
  port : ℤ
  connectionColors : Table ConnectionId Color := ∅
  connectionUsernames : Table ConnectionId StdString := ∅
  usernameConnections : Table StdString ConnectionId := ∅
  reservedColors : Table StdString Color := ∅

namespace SessionManager

/-- A session whose two players are fixed from the start. -/
def ofRoster (whiteUsername blackUsername : StdString) (port : ℤ) : SessionManager :=
  { phase := .inGame
    fixedRoster := true
    whiteUsername := whiteUsername
    blackUsername := blackUsername
    port := port }

def expectedColorForUsername (session : SessionManager) (username : StdString) : Option Color :=
  if username = session.whiteUsername then some .white
  else if username = session.blackUsername then some .black
  else none

/-- Write a login to both tables. -/
def bindLogin (session : SessionManager) (connectionId : ConnectionId) (username : StdString) :
    SessionManager :=
  { session with
    connectionUsernames := session.connectionUsernames.insert connectionId username
    usernameConnections := session.usernameConnections.insert username connectionId }

/-- Write a colour to the table of the seats. -/
def bindColor (session : SessionManager) (connectionId : ConnectionId) (color : Color) :
    SessionManager :=
  { session with connectionColors := session.connectionColors.insert connectionId color }

def authenticateLobby (session : SessionManager) (connectionId : ConnectionId)
    (username : StdString) : AuthResult × SessionManager :=
  if username = [] then (.unknownUser, session)
  else if (session.reservedColors.lookup username).isSome then (.accepted, session)
  else
    match session.connectionUsernames.lookup connectionId with
    | some existing =>
      if existing = username then (.accepted, session) else (.alreadyConnected, session)
    | none =>
      if (session.usernameConnections.lookup username).isSome then (.alreadyConnected, session)
      else (.accepted, session.bindLogin connectionId username)

def authenticate (session : SessionManager) (connectionId : ConnectionId) (username : StdString) :
    AuthResult × SessionManager :=
  if !session.fixedRoster then session.authenticateLobby connectionId username
  else
    match session.expectedColorForUsername username with
    | none => (.unknownUser, session)
    | some expected =>
      if (session.connectionColors.lookup connectionId).isSome then
        if session.usernameConnections.lookup username = some connectionId then (.accepted, session)
        else (.alreadyConnected, session)
      else if (session.usernameConnections.lookup username).isSome then (.alreadyConnected, session)
      else if session.connectionColors.size ≥ kMaxPlayers then (.slotFull, session)
      else (.accepted, (session.bindColor connectionId expected).bindLogin connectionId username)

def beginMatch (session : SessionManager) (result : MatchResult) : SessionManager :=
  let session :=
    { session with
      whiteUsername := result.white.username
      blackUsername := result.black.username
      phase := .inGame
      fixedRoster := true
      reservedColors := ∅ }
  (((session.bindColor result.white.connectionId .white).bindColor
      result.black.connectionId .black).bindLogin
      result.white.connectionId result.white.username).bindLogin
      result.black.connectionId result.black.username

def disconnect (session : SessionManager) (connectionId : ConnectionId) : SessionManager :=
  let session :=
    match session.connectionUsernames.lookup connectionId with
    | some username =>
      { session with
        usernameConnections := session.usernameConnections.erase username
        connectionUsernames := session.connectionUsernames.erase connectionId }
    | none => session
  { session with connectionColors := session.connectionColors.erase connectionId }

/-- Once the colour is reserved, the tables are changed as by `disconnect`. -/
def reserveDisconnectedSlot (session : SessionManager) (connectionId : ConnectionId)
    (username : StdString) (color : Color) : SessionManager :=
  { session with
    reservedColors := session.reservedColors.insert username color }.disconnect connectionId

/-- Evict the connection that another one takes the username over from. -/
def evict (session : SessionManager) (connectionId : ConnectionId) (username : StdString) :
    SessionManager :=
  match session.usernameConnections.lookup username with
  | some existing =>
    if existing ≠ connectionId then
      { session with
        connectionUsernames := session.connectionUsernames.erase existing
        connectionColors := session.connectionColors.erase existing }
    else session
  | none => session

def reconnect (session : SessionManager) (connectionId : ConnectionId) (username : StdString) :
    AuthResult × SessionManager :=
  match session.reservedColors.lookup username with
  | none => (.unknownUser, session)
  | some color =>
    let session := session.evict connectionId username
    let session := (session.bindColor connectionId color).bindLogin connectionId username
    (.accepted, { session with reservedColors := session.reservedColors.erase username })

def resetToLobby (session : SessionManager) : SessionManager :=
  { session with
    phase := .lobby
    fixedRoster := false
    whiteUsername := []
    blackUsername := []
    connectionColors := ∅
    connectionUsernames := ∅
    usernameConnections := ∅
    reservedColors := ∅ }

def colorFor (session : SessionManager) (connectionId : ConnectionId) : Option Color :=
  session.connectionColors.lookup connectionId

def colorForUsername (session : SessionManager) (username : StdString) : Option Color :=
  match session.reservedColors.lookup username with
  | some color => some color
  | none => session.expectedColorForUsername username

def usernameFor (session : SessionManager) (connectionId : ConnectionId) : Option StdString :=
  session.connectionUsernames.lookup connectionId

def isReady (session : SessionManager) : Bool := session.connectionColors.size = kMaxPlayers

def rosterSnapshot (session : SessionManager) : GameStarted :=
  { whiteUser := session.whiteUsername
    blackUser := session.blackUsername
    port := session.port }

/-! ## What each operation writes -/

/-- The connection on which a username is logged in. -/
def connectionFor (session : SessionManager) (username : StdString) : Option ConnectionId :=
  session.usernameConnections.lookup username

/-- The player of a colour. -/
def rosterName (session : SessionManager) : Color → StdString
  | .white => session.whiteUsername
  | .black => session.blackUsername

/-- The colour that is reserved for a username. -/
def reservedFor (session : SessionManager) (username : StdString) : Option Color :=
  session.reservedColors.lookup username

section Bind

variable (session : SessionManager) (connectionId other : ConnectionId) (username : StdString)
  (name : StdString) (color : Color)

@[simp]
theorem colorFor_bindColor :
    (session.bindColor connectionId color).colorFor other =
      if other = connectionId then some color else session.colorFor other :=
  Table.lookup_insert ..

@[simp]
theorem usernameFor_bindColor :
    (session.bindColor connectionId color).usernameFor other = session.usernameFor other := rfl

@[simp]
theorem connectionFor_bindColor :
    (session.bindColor connectionId color).connectionFor name = session.connectionFor name := rfl

@[simp]
theorem reservedFor_bindColor :
    (session.bindColor connectionId color).reservedFor name = session.reservedFor name := rfl

@[simp]
theorem colorFor_bindLogin :
    (session.bindLogin connectionId username).colorFor other = session.colorFor other := rfl

@[simp]
theorem usernameFor_bindLogin :
    (session.bindLogin connectionId username).usernameFor other =
      if other = connectionId then some username else session.usernameFor other :=
  Table.lookup_insert ..

@[simp]
theorem connectionFor_bindLogin :
    (session.bindLogin connectionId username).connectionFor name =
      if name = username then some connectionId else session.connectionFor name :=
  Table.lookup_insert ..

@[simp]
theorem reservedFor_bindLogin :
    (session.bindLogin connectionId username).reservedFor name = session.reservedFor name := rfl

end Bind

section Disconnect

variable (session : SessionManager) (connectionId other : ConnectionId) (name : StdString)

/-- The part of the session that `disconnect` leaves alone. -/
theorem disconnect_fields :
    ∃ colors usernames connections, session.disconnect connectionId =
      { session with
        connectionColors := colors
        connectionUsernames := usernames
        usernameConnections := connections } := by
  unfold disconnect
  split <;> exact ⟨_, _, _, rfl⟩

@[simp]
theorem phase_disconnect : (session.disconnect connectionId).phase = session.phase := by
  obtain ⟨_, _, _, h⟩ := disconnect_fields session connectionId
  rw [h]

@[simp]
theorem fixedRoster_disconnect :
    (session.disconnect connectionId).fixedRoster = session.fixedRoster := by
  obtain ⟨_, _, _, h⟩ := disconnect_fields session connectionId
  rw [h]

@[simp]
theorem rosterName_disconnect :
    (session.disconnect connectionId).rosterName = session.rosterName := by
  obtain ⟨_, _, _, h⟩ := disconnect_fields session connectionId
  rw [h]
  rfl

@[simp]
theorem reservedFor_disconnect :
    (session.disconnect connectionId).reservedFor name = session.reservedFor name := by
  obtain ⟨_, _, _, h⟩ := disconnect_fields session connectionId
  rw [h]
  rfl

@[simp]
theorem colorFor_disconnect :
    (session.disconnect connectionId).colorFor other =
      if other = connectionId then none else session.colorFor other := by
  unfold disconnect
  split <;> exact Table.lookup_erase ..

@[simp]
theorem usernameFor_disconnect :
    (session.disconnect connectionId).usernameFor other =
      if other = connectionId then none else session.usernameFor other := by
  unfold disconnect
  split
  · exact Table.lookup_erase ..
  · rename_i hnone
    split
    · rename_i heq
      rw [heq]
      exact hnone
    · rfl

@[simp]
theorem connectionFor_disconnect :
    (session.disconnect connectionId).connectionFor name =
      if session.usernameFor connectionId = some name then none
      else session.connectionFor name := by
  unfold disconnect usernameFor
  split
  · rename_i username heq
    simp only [connectionFor, Table.lookup_erase, heq, Option.some_inj, eq_comm]
  · rename_i hnone
    rw [hnone, if_neg nofun]
    rfl

end Disconnect

section Reserve

variable (session : SessionManager) (connectionId other : ConnectionId) (username name : StdString)
  (color : Color)

@[simp]
theorem phase_reserve :
    (session.reserveDisconnectedSlot connectionId username color).phase = session.phase :=
  phase_disconnect ..

@[simp]
theorem fixedRoster_reserve :
    (session.reserveDisconnectedSlot connectionId username color).fixedRoster =
      session.fixedRoster :=
  fixedRoster_disconnect ..

@[simp]
theorem rosterName_reserve :
    (session.reserveDisconnectedSlot connectionId username color).rosterName =
      session.rosterName :=
  rosterName_disconnect ..

@[simp]
theorem reservedFor_reserve :
    (session.reserveDisconnectedSlot connectionId username color).reservedFor name =
      if name = username then some color else session.reservedFor name :=
  (reservedFor_disconnect ..).trans (Table.lookup_insert ..)

@[simp]
theorem colorFor_reserve :
    (session.reserveDisconnectedSlot connectionId username color).colorFor other =
      if other = connectionId then none else session.colorFor other :=
  colorFor_disconnect ..

@[simp]
theorem usernameFor_reserve :
    (session.reserveDisconnectedSlot connectionId username color).usernameFor other =
      if other = connectionId then none else session.usernameFor other :=
  usernameFor_disconnect ..

@[simp]
theorem connectionFor_reserve :
    (session.reserveDisconnectedSlot connectionId username color).connectionFor name =
      if session.usernameFor connectionId = some name then none
      else session.connectionFor name :=
  connectionFor_disconnect ..

end Reserve

section Reconnect

variable (session : SessionManager) (connectionId other : ConnectionId) (username name : StdString)

theorem evict_fields :
    ∃ colors usernames, session.evict connectionId username =
      { session with connectionColors := colors, connectionUsernames := usernames } := by
  unfold evict
  split
  · split <;> exact ⟨_, _, rfl⟩
  · exact ⟨_, _, rfl⟩

@[simp]
theorem connectionFor_evict :
    (session.evict connectionId username).connectionFor name = session.connectionFor name := by
  obtain ⟨_, _, h⟩ := evict_fields session connectionId username
  rw [h]
  rfl

@[simp]
theorem reservedFor_evict :
    (session.evict connectionId username).reservedFor name = session.reservedFor name := by
  obtain ⟨_, _, h⟩ := evict_fields session connectionId username
  rw [h]
  rfl

/-- What the session knows of a connection: who uses it, and with which colour. -/
def seatOf (session : SessionManager) (connectionId : ConnectionId) :
    Option StdString × Option Color :=
  (session.usernameFor connectionId, session.colorFor connectionId)

/-- Only the previous connection of the username is evicted. -/
theorem seatOf_evict (hother : other ≠ connectionId) :
    (session.evict connectionId username).seatOf other =
      if session.connectionFor username = some other then (none, none)
      else session.seatOf other := by
  unfold evict connectionFor
  split
  · rename_i existing heq
    simp only [heq, Option.some_inj]
    split
    · simp only [seatOf, usernameFor, colorFor, Table.lookup_erase]
      split
      · rename_i hevicted
        rw [if_pos hevicted.symm]
      · rename_i hkept
        rw [if_neg (Ne.symm hkept)]
    · rename_i hsame
      rw [if_neg fun hexisting : existing = other ↦
        hother (hexisting.symm.trans (not_not.1 hsame))]
  · rename_i hnone
    rw [hnone, if_neg nofun]

/-- The session after an accepted reconnect. -/
def takeSeat (color : Color) : SessionManager :=
  { ((session.evict connectionId username).bindColor connectionId color).bindLogin connectionId
      username with
    reservedColors := (session.evict connectionId username).reservedColors.erase username }

/-- A reconnect is accepted exactly when a colour is reserved for the username. -/
theorem reconnect_eq :
    session.reconnect connectionId username =
      match session.reservedFor username with
      | none => (.unknownUser, session)
      | some color => (.accepted, session.takeSeat connectionId username color) := rfl

variable (color : Color)

@[simp]
theorem phase_takeSeat : (session.takeSeat connectionId username color).phase = session.phase := by
  obtain ⟨_, _, h⟩ := evict_fields session connectionId username
  rw [takeSeat, h]
  rfl

@[simp]
theorem fixedRoster_takeSeat :
    (session.takeSeat connectionId username color).fixedRoster = session.fixedRoster := by
  obtain ⟨_, _, h⟩ := evict_fields session connectionId username
  rw [takeSeat, h]
  rfl

@[simp]
theorem rosterName_takeSeat :
    (session.takeSeat connectionId username color).rosterName = session.rosterName := by
  obtain ⟨_, _, h⟩ := evict_fields session connectionId username
  rw [takeSeat, h]
  rfl

theorem seatOf_takeSeat :
    (session.takeSeat connectionId username color).seatOf other =
      if other = connectionId then (some username, some color)
      else if session.connectionFor username = some other then (none, none)
      else session.seatOf other := by
  change (((session.evict connectionId username).bindColor connectionId color).bindLogin
    connectionId username).seatOf other = _
  rw [seatOf, usernameFor_bindLogin, usernameFor_bindColor, colorFor_bindLogin,
    colorFor_bindColor]
  split
  · rfl
  · exact seatOf_evict _ _ _ _ ‹_›

@[simp]
theorem usernameFor_takeSeat :
    (session.takeSeat connectionId username color).usernameFor other =
      if other = connectionId then some username
      else if session.connectionFor username = some other then none
      else session.usernameFor other := by
  have hseat := congrArg Prod.fst (seatOf_takeSeat session connectionId other username color)
  rwa [apply_ite Prod.fst, apply_ite Prod.fst] at hseat

@[simp]
theorem colorFor_takeSeat :
    (session.takeSeat connectionId username color).colorFor other =
      if other = connectionId then some color
      else if session.connectionFor username = some other then none
      else session.colorFor other := by
  have hseat := congrArg Prod.snd (seatOf_takeSeat session connectionId other username color)
  rwa [apply_ite Prod.snd, apply_ite Prod.snd] at hseat

@[simp]
theorem connectionFor_takeSeat :
    (session.takeSeat connectionId username color).connectionFor name =
      if name = username then some connectionId else session.connectionFor name := by
  change (((session.evict connectionId username).bindColor connectionId color).bindLogin
    connectionId username).connectionFor name = _
  rw [connectionFor_bindLogin, connectionFor_bindColor, connectionFor_evict]

@[simp]
theorem reservedFor_takeSeat :
    (session.takeSeat connectionId username color).reservedFor name =
      if name = username then none else session.reservedFor name := by
  rw [← reservedFor_evict session connectionId username]
  exact Table.lookup_erase ..

end Reconnect

section Authenticate

variable (session : SessionManager) (connectionId : ConnectionId) (username : StdString)

theorem rosterName_of_expectedColor {color : Color}
    (h : session.expectedColorForUsername username = some color) :
    session.rosterName color = username := by
  unfold expectedColorForUsername at h
  split at h
  · rename_i heq
    rw [← Option.some.inj h, heq]
    rfl
  · split at h
    · rename_i heq
      rw [← Option.some.inj h, heq]
      rfl
    · exact absurd h nofun

/-- A login to the lobby is written only where both ends are free. -/
theorem authenticateLobby_cases :
    (session.authenticateLobby connectionId username).2 = session ∨
      session.usernameFor connectionId = none ∧ session.connectionFor username = none ∧
        session.authenticateLobby connectionId username =
          (.accepted, session.bindLogin connectionId username) := by
  unfold authenticateLobby
  split
  · exact .inl rfl
  split
  · exact .inl rfl
  split
  · split <;> exact .inl rfl
  · rename_i hnone
    split
    · exact .inl rfl
    · rename_i hfree
      exact .inr ⟨hnone, Option.not_isSome_iff_eq_none.1 hfree, rfl⟩

/-- What a login can do: nothing, bind a free connection to a free name in the lobby, or seat a
player of the fixed roster who is not logged in. -/
theorem authenticate_cases :
    (session.authenticate connectionId username).2 = session ∨
      (session.fixedRoster = false ∧ session.usernameFor connectionId = none ∧
        session.connectionFor username = none ∧
        session.authenticate connectionId username =
          (.accepted, session.bindLogin connectionId username)) ∨
      ∃ color, session.fixedRoster = true ∧ session.rosterName color = username ∧
        session.colorFor connectionId = none ∧ session.connectionFor username = none ∧
        session.authenticate connectionId username =
          (.accepted, (session.bindColor connectionId color).bindLogin connectionId username) := by
  unfold authenticate
  split
  · rename_i hopen
    rcases session.authenticateLobby_cases connectionId username with h | ⟨hfree, hname, h⟩
    · exact .inl h
    · exact .inr (.inl ⟨by simpa using hopen, hfree, hname, h⟩)
  · rename_i hfixed
    split
    · exact .inl rfl
    · rename_i color hexpected
      split
      · split <;> exact .inl rfl
      · rename_i hseat
        split
        · exact .inl rfl
        · rename_i hname
          split
          · exact .inl rfl
          · exact .inr (.inr ⟨color, by simpa using hfixed,
              session.rosterName_of_expectedColor username hexpected,
              Option.not_isSome_iff_eq_none.1 hseat, Option.not_isSome_iff_eq_none.1 hname, rfl⟩)

end Authenticate

section BeginMatch

variable (session : SessionManager) (result : MatchResult) (other : ConnectionId)
  (name : StdString)

@[simp]
theorem colorFor_beginMatch :
    (session.beginMatch result).colorFor other =
      if other = result.black.connectionId then some .black
      else if other = result.white.connectionId then some .white
      else session.colorFor other := by
  simp only [beginMatch, colorFor_bindLogin, colorFor_bindColor]
  rfl

@[simp]
theorem usernameFor_beginMatch :
    (session.beginMatch result).usernameFor other =
      if other = result.black.connectionId then some result.black.username
      else if other = result.white.connectionId then some result.white.username
      else session.usernameFor other := by
  simp only [beginMatch, usernameFor_bindLogin, usernameFor_bindColor]
  rfl

@[simp]
theorem connectionFor_beginMatch :
    (session.beginMatch result).connectionFor name =
      if name = result.black.username then some result.black.connectionId
      else if name = result.white.username then some result.white.connectionId
      else session.connectionFor name := by
  simp only [beginMatch, connectionFor_bindLogin, connectionFor_bindColor]
  rfl

@[simp]
theorem reservedFor_beginMatch : (session.beginMatch result).reservedFor name = none := rfl

@[simp]
theorem phase_beginMatch : (session.beginMatch result).phase = .inGame := rfl

@[simp]
theorem fixedRoster_beginMatch : (session.beginMatch result).fixedRoster = true := rfl

@[simp]
theorem rosterName_beginMatch (color : Color) :
    (session.beginMatch result).rosterName color =
      match color with
      | .white => result.white.username
      | .black => result.black.username := by
  cases color <;> rfl

end BeginMatch

section ResetToLobby

variable (session : SessionManager) (other : ConnectionId) (name : StdString)

@[simp]
theorem colorFor_resetToLobby : session.resetToLobby.colorFor other = none := rfl

@[simp]
theorem usernameFor_resetToLobby : session.resetToLobby.usernameFor other = none := rfl

@[simp]
theorem connectionFor_resetToLobby : session.resetToLobby.connectionFor name = none := rfl

@[simp]
theorem reservedFor_resetToLobby : session.resetToLobby.reservedFor name = none := rfl

@[simp]
theorem phase_resetToLobby : session.resetToLobby.phase = .lobby := rfl

@[simp]
theorem fixedRoster_resetToLobby : session.resetToLobby.fixedRoster = false := rfl

end ResetToLobby

end SessionManager

end KongFuChess.Session
