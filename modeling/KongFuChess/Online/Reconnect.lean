import KongFuChess.Library.Transition
import KongFuChess.Online.SessionManager

/-!
# Getting a lost seat back

While a seat is reserved, the session may do anything that involves neither the player nor the lost
connection: other players log in, leave, lose their own seats and get them back. The reservation is
still there afterwards, and the reconnect writes the player's rows and nothing else.
-/

namespace KongFuChess.Session

open Model Matchmaking

/-- The calls that change the session between a match and the next. -/
inductive SessionOp
  | authenticate (connectionId : ConnectionId) (username : StdString)
  | authenticateLobby (connectionId : ConnectionId) (username : StdString)
  | disconnect (connectionId : ConnectionId)
  | reserveDisconnectedSlot (connectionId : ConnectionId) (username : StdString) (color : Color)
  | reconnect (connectionId : ConnectionId) (username : StdString)
deriving DecidableEq, Repr

namespace SessionOp

def connectionId : SessionOp → ConnectionId
  | .authenticate connectionId _ => connectionId
  | .authenticateLobby connectionId _ => connectionId
  | .disconnect connectionId => connectionId
  | .reserveDisconnectedSlot connectionId _ _ => connectionId
  | .reconnect connectionId _ => connectionId

def username : SessionOp → Option StdString
  | .authenticate _ username => some username
  | .authenticateLobby _ username => some username
  | .disconnect _ => none
  | .reserveDisconnectedSlot _ username _ => some username
  | .reconnect _ username => some username

/-- The call involves neither the connection nor the username. -/
def Avoids (op : SessionOp) (connectionId : ConnectionId) (username : StdString) : Prop :=
  op.connectionId ≠ connectionId ∧ op.username ≠ some username

instance (op : SessionOp) (connectionId : ConnectionId) (username : StdString) :
    Decidable (op.Avoids connectionId username) :=
  inferInstanceAs (Decidable (_ ∧ _))

end SessionOp

namespace SessionManager

def perform (session : SessionManager) : SessionOp → SessionManager
  | .authenticate connectionId username => (session.authenticate connectionId username).2
  | .authenticateLobby connectionId username =>
    (session.authenticateLobby connectionId username).2
  | .disconnect connectionId => session.disconnect connectionId
  | .reserveDisconnectedSlot connectionId username color =>
    session.reserveDisconnectedSlot connectionId username color
  | .reconnect connectionId username => (session.reconnect connectionId username).2

/-- The seat of `username`, lost with the connection `lost`, is kept. -/
structure KeepsSeat (lost : ConnectionId) (username : StdString) (color : Color)
    (session : SessionManager) : Prop where
  reserved : session.reservedFor username = some color
  absent : session.connectionFor username = none
  username_lost : session.usernameFor lost = none
  color_lost : session.colorFor lost = none

variable {lost : ConnectionId} {username : StdString} {color : Color} {session : SessionManager}

theorem keepsSeat_reserve (hlogin : session.usernameFor lost = some username) :
    KeepsSeat lost username color (session.reserveDisconnectedSlot lost username color) where
  reserved := by simp
  absent := by simp [hlogin]
  username_lost := by simp
  color_lost := by simp

theorem KeepsSeat.bindLogin (h : KeepsSeat lost username color session)
    {connectionId : ConnectionId} {name : StdString} (hconnection : connectionId ≠ lost)
    (hname : name ≠ username) :
    KeepsSeat lost username color (session.bindLogin connectionId name) where
  reserved := h.reserved
  absent := by simpa [hname.symm] using h.absent
  username_lost := by simpa [hconnection.symm] using h.username_lost
  color_lost := h.color_lost

theorem KeepsSeat.bindColor (h : KeepsSeat lost username color session)
    {connectionId : ConnectionId} (hconnection : connectionId ≠ lost) (taken : Color) :
    KeepsSeat lost username color (session.bindColor connectionId taken) where
  reserved := h.reserved
  absent := h.absent
  username_lost := h.username_lost
  color_lost := by simpa [hconnection.symm] using h.color_lost

theorem KeepsSeat.disconnect (h : KeepsSeat lost username color session)
    (connectionId : ConnectionId) :
    KeepsSeat lost username color (session.disconnect connectionId) where
  reserved := by simpa using h.reserved
  absent := by simp [h.absent]
  username_lost := by simp [h.username_lost]
  color_lost := by simp [h.color_lost]

theorem KeepsSeat.takeSeat (h : KeepsSeat lost username color session)
    {connectionId : ConnectionId} {name : StdString} (hconnection : connectionId ≠ lost)
    (hname : name ≠ username) (taken : Color) :
    KeepsSeat lost username color (session.takeSeat connectionId name taken) where
  reserved := by simpa [hname.symm] using h.reserved
  absent := by simpa [hname.symm] using h.absent
  username_lost := by simp [hconnection.symm, h.username_lost]
  color_lost := by simp [hconnection.symm, h.color_lost]

/-- No call that involves neither the player nor the lost connection takes the seat away. -/
theorem KeepsSeat.perform (h : KeepsSeat lost username color session) {op : SessionOp}
    (havoids : op.Avoids lost username) : KeepsSeat lost username color (session.perform op) := by
  obtain ⟨hconnection, hname⟩ := havoids
  cases op with
  | authenticate connectionId name =>
    have hne : name ≠ username := fun heq ↦ hname (congrArg some heq)
    rw [SessionManager.perform]
    rcases session.authenticate_cases connectionId name with
      heq | ⟨-, -, -, heq⟩ | ⟨taken, -, -, -, -, heq⟩
    · rwa [heq]
    · rw [heq]
      exact h.bindLogin hconnection hne
    · rw [heq]
      exact (h.bindColor hconnection taken).bindLogin hconnection hne
  | authenticateLobby connectionId name =>
    have hne : name ≠ username := fun heq ↦ hname (congrArg some heq)
    rw [SessionManager.perform]
    rcases session.authenticateLobby_cases connectionId name with heq | ⟨-, -, heq⟩
    · rwa [heq]
    · rw [heq]
      exact h.bindLogin hconnection hne
  | disconnect connectionId => exact h.disconnect connectionId
  | reserveDisconnectedSlot connectionId name reserved =>
    have hne : name ≠ username := fun heq ↦ hname (congrArg some heq)
    have hreserved : KeepsSeat lost username color
        { session with reservedColors := session.reservedColors.insert name reserved } := by
      refine ⟨?_, h.absent, h.username_lost, h.color_lost⟩
      rw [reservedFor, Table.lookup_insert, if_neg hne.symm]
      exact h.reserved
    exact hreserved.disconnect connectionId
  | reconnect connectionId name =>
    have hne : name ≠ username := fun heq ↦ hname (congrArg some heq)
    rw [SessionManager.perform, reconnect_eq]
    split
    · exact h
    · exact h.takeSeat hconnection hne _

theorem KeepsSeat.run (h : KeepsSeat lost username color session) {ops : List SessionOp}
    (havoids : ∀ op ∈ ops, op.Avoids lost username) :
    KeepsSeat lost username color (Transition.run SessionManager.perform session ops) := by
  induction ops generalizing session with
  | nil => exact h
  | cons op ops ih =>
    exact ih (h.perform (havoids op (List.mem_cons_self ..)))
      fun other hother ↦ havoids other (List.mem_cons_of_mem _ hother)

/-- Only the rows of one connection and of one username differ between the two sessions. -/
structure SameElsewhere (connectionId : ConnectionId) (username : StdString)
    (left right : SessionManager) : Prop where
  usernameFor : ∀ other, other ≠ connectionId → left.usernameFor other = right.usernameFor other
  colorFor : ∀ other, other ≠ connectionId → left.colorFor other = right.colorFor other
  connectionFor : ∀ name, name ≠ username → left.connectionFor name = right.connectionFor name
  reservedFor : ∀ name, name ≠ username → left.reservedFor name = right.reservedFor name

/-- Taking a kept seat touches nobody else. -/
theorem KeepsSeat.sameElsewhere (h : KeepsSeat lost username color session)
    (connectionId : ConnectionId) :
    SameElsewhere connectionId username (session.takeSeat connectionId username color)
      session where
  usernameFor := fun other hother ↦ by simp [hother, h.absent]
  colorFor := fun other hother ↦ by simp [hother, h.absent]
  connectionFor := fun name hname ↦ by simp [hname]
  reservedFor := fun name hname ↦ by simp [hname]

/-- Reconnecting restores exactly the lost seat: the seat of a player who is logged in on `lost` is
reserved, the session goes on without the player, and the player comes back on another connection.
This holds whatever match the session is in, in particular right after it has begun. -/
theorem reconnect_restores_seat (hlogin : session.usernameFor lost = some username)
    (hseat : session.colorFor lost = some color) {ops : List SessionOp}
    (havoids : ∀ op ∈ ops, op.Avoids lost username) {connectionId : ConnectionId}
    (hother : connectionId ≠ lost) :
    let left :=
      Transition.run perform (session.reserveDisconnectedSlot lost username color) ops
    let restored := (left.reconnect connectionId username).2
    (left.reconnect connectionId username).1 = .accepted ∧
      restored.colorFor connectionId = session.colorFor lost ∧
      restored.usernameFor connectionId = some username ∧
      restored.connectionFor username = some connectionId ∧
      restored.colorFor lost = none ∧ restored.usernameFor lost = none ∧
      restored.reservedFor username = none ∧
      SameElsewhere connectionId username restored left := by
  intro left restored
  have hkept : KeepsSeat lost username color left := (keepsSeat_reserve hlogin).run havoids
  have heq : left.reconnect connectionId username =
      (.accepted, left.takeSeat connectionId username color) := by
    rw [reconnect_eq, hkept.reserved]
  have hrestored : restored = left.takeSeat connectionId username color := congrArg Prod.snd heq
  rw [heq, hrestored]
  refine ⟨rfl, ?_, ?_, ?_, ?_, ?_, ?_, hkept.sameElsewhere connectionId⟩
  · simp [hseat]
  · simp
  · simp
  · simp [hother.symm, hkept.absent, hkept.color_lost]
  · simp [hother.symm, hkept.absent, hkept.username_lost]
  · simp

/-- Ann plays White on connection 1 and Bob plays Black on connection 2. -/
def matchedSession : SessionManager :=
  let lobby : SessionManager := { port := 0 }
  ((lobby.authenticate 1 "ann".toList).2.authenticate 2 "bob".toList).2.beginMatch
    { white := { connectionId := 1, username := "ann".toList, enqueuedAt := 0 }
      black := { connectionId := 2, username := "bob".toList, enqueuedAt := 0 } }

/-- Ann comes back after Bob has left and come back himself. -/
theorem reconnect_restores_seat_of_ann :
    (Transition.run perform (matchedSession.reserveDisconnectedSlot 1 "ann".toList .white)
        [.reserveDisconnectedSlot 2 "bob".toList .black, .reconnect 3 "bob".toList]).reconnect 4
      "ann".toList |>.2.colorFor 4 = some .white := by
  have hlogin : matchedSession.usernameFor 1 = some "ann".toList := by decide
  have hseat : matchedSession.colorFor 1 = some .white := by decide
  have hother : (4 : ConnectionId) ≠ 1 := by decide
  exact (reconnect_restores_seat hlogin hseat (by decide) hother).2.1

end SessionManager

end KongFuChess.Session
