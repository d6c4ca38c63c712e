import KongFuChess.Server.Run

/-!
# What the server sends

A rule for all messages among the outputs of the handlers, whoever they are sent to. Only the answer
to a login tells that somebody is logged in, only to the connection that has asked, and at most
once. Of the game the server itself tells no more than that it starts and that it has ended.
-/

namespace KongFuChess.Network

open Model Events Session Matchmaking

/-- Every message is sent to somebody whom it is meant for. -/
def AllSent (P : ConnectionId → ServerMessage → Prop) (outputs : List Output) : Prop :=
  ∀ connectionId message, .sent connectionId message ∈ outputs → P connectionId message

namespace AllSent

variable {P Q : ConnectionId → ServerMessage → Prop} {first second : List Output}

theorem nil : AllSent P [] := fun _ _ hmem ↦ absurd hmem List.not_mem_nil

theorem append (hfirst : AllSent P first) (hsecond : AllSent P second) :
    AllSent P (first ++ second) := by
  intro connectionId message hmem
  rcases List.mem_append.1 hmem with hmem | hmem
  · exact hfirst connectionId message hmem
  · exact hsecond connectionId message hmem

theorem sent {connectionId : ConnectionId} {message : ServerMessage} (h : P connectionId message) :
    AllSent P [.sent connectionId message] := by
  intro other otherMessage hmem
  obtain ⟨rfl, rfl⟩ := Output.sent.inj (List.mem_singleton.1 hmem)
  exact h

theorem mono (h : AllSent P first) (himp : ∀ connectionId message, P connectionId message →
    Q connectionId message) : AllSent Q first :=
  fun connectionId message hmem ↦ himp connectionId message (h connectionId message hmem)

theorem flatMap {α : Type*} {values : List α} {outputs : α → List Output}
    (h : ∀ value ∈ values, AllSent P (outputs value)) : AllSent P (values.flatMap outputs) := by
  intro connectionId message hmem
  obtain ⟨value, hvalue, hsent⟩ := List.mem_flatMap.1 hmem
  exact h value hvalue connectionId message hsent

section Server

variable (server : WsServer) {message : ServerMessage} (h : ∀ connectionId, P connectionId message)
include h

theorem broadcast : AllSent P (server.broadcast message) := by
  intro connectionId other hmem
  obtain ⟨client, -, heq⟩ := List.mem_map.1 hmem
  obtain ⟨rfl, rfl⟩ := Output.sent.inj heq
  exact h client

theorem sendToConnection (connectionId : ConnectionId) :
    AllSent P (server.sendToConnection connectionId message) := by
  unfold WsServer.sendToConnection
  split
  · exact .sent (h connectionId)
  · exact .nil

end Server

theorem publish (server : WsServer) {event : GameEvent}
    (h : ∀ connectionId, P connectionId (.gameEvent event)) : AllSent P (server.publish event) := by
  intro connectionId message hmem
  rcases List.mem_cons.1 hmem with heq | hmem
  · exact absurd heq Output.noConfusion
  · exact AllSent.broadcast server h connectionId message hmem

end AllSent

/-- The message neither answers a login nor tells of a move, and does not complain of a text that
cannot be read. -/
def ServerMessage.Ordinary : ServerMessage → Prop
  | .loginOk _ => False
  | .error message => message ≠ "Invalid message".toList
  | .gameEvent (.gameStarted _) | .gameEvent (.gameEnded _) => True
  | .gameEvent _ => False
  | _ => True

/-- The word for the seat of a player who logs in. -/
def seatLabel : Option Color → StdString
  | none => "none".toList
  | some color => Protocol.colorLabel color

/-- A login of a connection may be answered with its seat. -/
def LoginReply (sender connectionId : ConnectionId) (message : ServerMessage) : Prop :=
  message.Ordinary ∨ connectionId = sender ∧ ∃ seat, message = .loginOk (seatLabel seat)

namespace WsServer

variable (server : WsServer) (connectionId : ConnectionId)

theorem authErrorMessage_ordinary (result : AuthResult) :
    (ServerMessage.error (authErrorMessage result)).Ordinary := by
  cases result <;> exact of_decide_eq_false rfl

/-! ## Handlers -/

theorem allSent_handleLogin (username : StdString) :
    AllSent (LoginReply connectionId) (server.handleLogin connectionId username).1 := by
  have herror : ∀ result, AllSent (LoginReply connectionId)
      [.sent connectionId (.error (authErrorMessage result))] :=
    fun result ↦ .sent (.inl (authErrorMessage_ordinary result))
  have hok : ∀ seat, LoginReply connectionId connectionId (.loginOk (seatLabel seat)) :=
    fun seat ↦ .inr ⟨rfl, seat, rfl⟩
  unfold handleLogin
  split
  · split
    · refine (AllSent.broadcast _ fun _ ↦ .inl trivial).append ?_
      split
      · exact .sent (.inl (of_decide_eq_false rfl))
      · rename_i color _
        exact (AllSent.sent (hok (some color))).append (.sent (.inl trivial))
    · exact herror _
  · split
    · apply AllSent.sent
      split
      · exact hok none
      · rename_i color _
        exact hok (some color)
    · exact herror _

theorem allSent_handleJoinQueue (record : Option ℤ) (now : TimePoint) :
    AllSent (fun _ ↦ ServerMessage.Ordinary)
      (server.handleJoinQueue connectionId record now).1 := by
  unfold handleJoinQueue
  split
  · rename_i message hguard
    apply AllSent.sent
    unfold joinGuard at hguard
    split at hguard
    · rw [← Except.error.inj hguard]
      exact of_decide_eq_false rfl
    · split at hguard
      · rw [← Except.error.inj hguard]
        exact of_decide_eq_false rfl
      · exact absurd hguard (by simp)
  · dsimp only
    split
    · exact .sent trivial
    · have hjoined : AllSent (fun _ ↦ ServerMessage.Ordinary)
          [.sent connectionId .queueJoined] := .sent trivial
      refine hjoined.append ?_
      unfold notifyMatch
      exact ((AllSent.sendToConnection _ (fun _ ↦ trivial) _).append
        (.sendToConnection _ (fun _ ↦ trivial) _)).append (.publish _ fun _ ↦ trivial)

theorem allSent_handleLeaveQueue :
    AllSent (fun _ ↦ ServerMessage.Ordinary) (server.handleLeaveQueue connectionId).1 := by
  unfold handleLeaveQueue
  split
  · exact .sent (of_decide_eq_false rfl)
  · exact .sent trivial

theorem allSent_handleDisconnect (now : TimePoint) :
    AllSent (fun _ ↦ ServerMessage.Ordinary) (server.handleDisconnect connectionId now).1 := by
  unfold handleDisconnect
  split
  · exact .broadcast _ fun _ ↦ trivial
  · exact .nil

theorem allSent_tickQueueTimeouts (now : TimePoint) :
    AllSent (fun _ ↦ ServerMessage.Ordinary) (server.tickQueueTimeouts now).1 :=
  .flatMap fun _ _ ↦ .sendToConnection _ (fun _ ↦ trivial) _

theorem allSent_tickGrace (now : TimePoint) (order : List StdString) :
    AllSent (fun _ ↦ ServerMessage.Ordinary) (server.tickGrace now order).1 := by
  unfold tickGrace
  split
  · exact .nil
  · exact .publish _ fun _ ↦ trivial

/-- A login is the only operation that is answered with a seat. -/
theorem allSent_outputs (op : Op) :
    AllSent (fun connectionId message ↦ message.Ordinary ∨
      (∃ username, op = .login connectionId username) ∧
        ∃ seat, message = .loginOk (seatLabel seat)) (server.outputs op) := by
  have hordinary : ∀ {outputs}, AllSent (fun _ ↦ ServerMessage.Ordinary) outputs →
      AllSent (fun connectionId message ↦ message.Ordinary ∨
        (∃ username, op = .login connectionId username) ∧
          ∃ seat, message = .loginOk (seatLabel seat)) outputs :=
    fun h ↦ h.mono fun _ _ hmessage ↦ .inl hmessage
  unfold outputs perform
  cases op with
  | opened connectionId => exact .nil
  | login connectionId username =>
    dsimp only
    split
    · refine AllSent.mono (server.allSent_handleLogin connectionId username) ?_
      rintro other message (hmessage | ⟨rfl, hseat⟩)
      · exact .inl hmessage
      · exact .inr ⟨⟨username, rfl⟩, hseat⟩
    · exact .nil
  | joinQueue connectionId record now =>
    dsimp only
    split
    · exact hordinary (server.allSent_handleJoinQueue connectionId record now)
    · exact .nil
  | leaveQueue connectionId =>
    dsimp only
    split
    · exact hordinary (server.allSent_handleLeaveQueue connectionId)
    · exact .nil
  | closed connectionId now =>
    dsimp only
    split
    · exact hordinary (server.allSent_handleDisconnect connectionId now)
    · exact .nil
  | queueTick now => exact hordinary (server.allSent_tickQueueTimeouts now)
  | graceTick now order => exact hordinary (server.allSent_tickGrace now order)

end WsServer

end KongFuChess.Network
