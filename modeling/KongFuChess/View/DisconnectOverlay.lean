import KongFuChess.Library.Transition
import KongFuChess.Network.LobbyMessages
import KongFuChess.Online.MatchmakingQueue
import Mathlib.Algebra.Ring.Int.Defs

/-!
# The disconnect overlay

While a player is away, a layer over the board names the player and counts the seconds down. The
overlay is switched on and off by the messages of the server, and every frame computes the seconds
anew and switches the overlay off for good when none is left. What it shows can be read off the last
news alone, because the clock never goes back.
-/

namespace KongFuChess.View

open Network Matchmaking

def seconds (count : ℤ) : ℤ := milliseconds (count * 1000)

structure DisconnectOverlayState where
  active : Bool := false
  disconnectedUsername : StdString := []
  secondsRemaining : ℤ := 0
  graceUntil : TimePoint := 0
deriving DecidableEq, Repr

namespace DisconnectOverlayState

def start (_overlay : DisconnectOverlayState) (username : StdString) (graceSeconds : ℤ)
    (now : TimePoint) : DisconnectOverlayState :=
  { active := true
    disconnectedUsername := username
    secondsRemaining := graceSeconds
    graceUntil := now + seconds graceSeconds }

def clear (overlay : DisconnectOverlayState) : DisconnectOverlayState :=
  { overlay with active := false, disconnectedUsername := [], secondsRemaining := 0 }

/-- Whole seconds are cut off towards zero. -/
def updateCountdown (overlay : DisconnectOverlayState) (now : TimePoint) :
    DisconnectOverlayState :=
  if !overlay.active then overlay
  else
    let remaining := (overlay.graceUntil - now).tdiv (seconds 1)
    let secondsRemaining := Protocol.toInt (max 0 remaining)
    { overlay with
      secondsRemaining := secondsRemaining
      active := if secondsRemaining = 0 then false else overlay.active }

/-- `now` is the time that a start reads off the clock. -/
def applyMessage (overlay : DisconnectOverlayState) (json : StdString) (now : TimePoint) :
    DisconnectOverlayState :=
  match parseServerMessageType json with
  | .playerDisconnected =>
    match parsePlayerDisconnectedMessage json with
    | some message => overlay.start message.username message.graceSeconds now
    | none => overlay
  | .playerReconnected => overlay.clear
  | .gameEnded => overlay.clear
  | _ => overlay

inductive Op
  | message (json : StdString) (now : TimePoint)
  | frame (now : TimePoint)
deriving DecidableEq, Repr

def Op.time : Op → TimePoint
  | .message _ now => now
  | .frame now => now

def step (overlay : DisconnectOverlayState) : Op → DisconnectOverlayState
  | .message json now => overlay.applyMessage json now
  | .frame now => overlay.updateCountdown now

abbrev run (overlay : DisconnectOverlayState) (ops : List Op) : DisconnectOverlayState :=
  Transition.run step overlay ops

/-- The name and the seconds that are drawn. -/
def shown (overlay : DisconnectOverlayState) : Option (StdString × ℤ) :=
  if !overlay.active then none else some (overlay.disconnectedUsername, overlay.secondsRemaining)

end DisconnectOverlayState

/-! ## The last news -/

/-- A player has been away since a time, and may be so for some seconds. -/
structure Absence where
  username : StdString
  since : TimePoint
  graceSeconds : ℤ
deriving DecidableEq, Repr

namespace Absence

def deadline (absence : Absence) : TimePoint := absence.since + seconds absence.graceSeconds

def secondsLeft (absence : Absence) (now : TimePoint) : ℤ := (absence.deadline - now) / seconds 1

/-- What a message says, if it is about an absence at all. -/
def ofMessage (json : StdString) (now : TimePoint) : Option (Option Absence) :=
  match parseServerMessageType json with
  | .playerDisconnected =>
    (parsePlayerDisconnectedMessage json).map fun message ↦
      some ⟨message.username, now, message.graceSeconds⟩
  | .playerReconnected | .gameEnded => some none
  | _ => none

def learn (absence : Option Absence) : DisconnectOverlayState.Op → Option Absence
  | .message json now => (ofMessage json now).getD absence
  | .frame _ => absence

/-- The absence of the last message about one. -/
def last (ops : List DisconnectOverlayState.Op) : Option Absence := ops.foldl learn none

/-- What is to be drawn: a player who has at least one whole second left, and the whole seconds. -/
def shown (absence : Absence) (now : TimePoint) : Option (StdString × ℤ) :=
  if 1 ≤ absence.secondsLeft now then some (absence.username, absence.secondsLeft now) else none

end Absence

namespace DisconnectOverlayState

variable {overlay : DisconnectOverlayState} {absence : Option Absence} {now later : TimePoint}

/-- The overlay at a time after the last news. -/
structure Reflects (overlay : DisconnectOverlayState) (absence : Option Absence)
    (now : TimePoint) : Prop where
  past : ∀ told ∈ absence, told.since ≤ now
  bounded : ∀ told ∈ absence, Protocol.InIntRange told.graceSeconds
  of_active : overlay.active = true → ∃ told, absence = some told ∧
    overlay.disconnectedUsername = told.username ∧ overlay.graceUntil = told.deadline
  of_inactive : overlay.active = false → ∀ told ∈ absence, told.secondsLeft now < 1

theorem inIntRange_graceSeconds {json : StdString} {message : PlayerDisconnectedMessage}
    (h : parsePlayerDisconnectedMessage json = some message) :
    Protocol.InIntRange message.graceSeconds := by
  unfold parsePlayerDisconnectedMessage at h
  split at h
  · simp at h
  · simp only [Option.bind_eq_bind, Option.bind_eq_some_iff] at h
    obtain ⟨username, -, color, -, graceSeconds, hgrace, hmessage⟩ := h
    obtain rfl := Option.some.inj hmessage
    unfold Protocol.extractJsonInt at hgrace
    obtain ⟨cursor, -, hvalue⟩ := Option.bind_eq_some_iff.1 hgrace
    obtain ⟨value, -, rfl⟩ := Option.map_eq_some_iff.1 hvalue
    simp only [Protocol.toInt, Protocol.InIntRange]
    omega

/-- Cutting off and rounding down differ below zero only. -/
theorem max_tdiv (left : ℤ) {unit : ℤ} (h : 0 < unit) :
    max 0 (left.tdiv unit) = max 0 (left / unit) := by
  rcases le_or_gt 0 left with hleft | hover
  · rw [Int.tdiv_eq_ediv_of_nonneg hleft]
  · have htrunc : left.tdiv unit ≤ 0 := by
      rw [← Int.neg_nonneg, ← Int.neg_tdiv]
      exact Int.tdiv_nonneg (by omega) h.le
    have hfloor : left / unit < 0 := Int.ediv_neg_of_neg_of_pos hover h
    omega

/-- Fewer seconds are left the later it is. -/
theorem secondsLeft_anti (told : Absence) (h : now ≤ later) :
    told.secondsLeft later ≤ told.secondsLeft now :=
  Int.ediv_le_ediv (by decide) (Int.sub_le_sub_left h _)

theorem Reflects.mono (h : Reflects overlay absence now) (hlater : now ≤ later) :
    Reflects overlay absence later where
  past told hmem := (h.past told hmem).trans hlater
  bounded := h.bounded
  of_active := h.of_active
  of_inactive hactive told hmem :=
    (secondsLeft_anti told hlater).trans_lt (h.of_inactive hactive told hmem)

/-- Nobody is away. -/
theorem reflects_none (hactive : overlay.active = false) : Reflects overlay none now where
  past told hmem := absurd hmem (Option.not_mem_none told)
  bounded told hmem := absurd hmem (Option.not_mem_none told)
  of_active h := absurd (hactive.symm.trans h) Bool.false_ne_true
  of_inactive _ told hmem := absurd hmem (Option.not_mem_none told)

theorem Reflects.applyMessage (h : Reflects overlay absence now) (json : StdString) :
    Reflects (overlay.applyMessage json now) ((Absence.ofMessage json now).getD absence) now := by
  unfold DisconnectOverlayState.applyMessage Absence.ofMessage
  cases parseServerMessageType json with
  | playerDisconnected =>
    cases hparse : parsePlayerDisconnectedMessage json with
    | none => exact h
    | some message =>
      constructor
      · intro told hmem
        obtain rfl := Option.some.inj hmem
        exact le_rfl
      · intro told hmem
        obtain rfl := Option.some.inj hmem
        exact inIntRange_graceSeconds hparse
      · exact fun _ ↦ ⟨_, rfl, rfl, rfl⟩
      · exact fun hactive ↦ absurd hactive (by simp [DisconnectOverlayState.start])
  | playerReconnected => exact reflects_none rfl
  | gameEnded => exact reflects_none rfl
  | unknown | loginOk | error | queueJoined | queueLeft | matchFound | gameStarted | moveStarted
  | moveCompleted | jumpStarted | jumpCapture | queueTimeout => exact h

/-- The seconds of a frame, counted from the absence that is shown. -/
theorem Reflects.seconds_eq {told : Absence} (h : Reflects overlay (some told) now)
    (huntil : overlay.graceUntil = told.deadline) :
    Protocol.toInt (max 0 ((overlay.graceUntil - now).tdiv (seconds 1))) =
      max 0 (told.secondsLeft now) := by
  have hpast := h.past told rfl
  obtain ⟨-, hhigh⟩ := h.bounded told rfl
  have hbound : told.secondsLeft now ≤ told.graceSeconds := by
    apply Int.ediv_le_of_le_mul (by decide)
    calc
      told.deadline - now ≤ told.deadline - told.since := Int.sub_le_sub_left hpast _
      _ = told.graceSeconds * seconds 1 := by
        rw [Absence.deadline, add_sub_cancel_left, seconds, seconds, milliseconds, milliseconds,
          one_mul, mul_assoc]
  have hrange : Protocol.toInt (max 0 (told.secondsLeft now)) = max 0 (told.secondsLeft now) := by
    unfold Protocol.toInt
    omega
  rw [huntil, max_tdiv _ (by decide), ← Absence.secondsLeft, hrange]

theorem Reflects.updateCountdown (h : Reflects overlay absence now) :
    Reflects (overlay.updateCountdown now) absence now ∧
      (overlay.updateCountdown now).shown = absence.bind (·.shown now) := by
  unfold DisconnectOverlayState.updateCountdown
  cases hactive : overlay.active with
  | false =>
    refine ⟨by simpa using h, ?_⟩
    rw [if_pos (by decide), DisconnectOverlayState.shown, hactive, if_pos (by decide)]
    cases absence with
    | none => rfl
    | some told =>
      rw [Option.bind_some, Absence.shown, if_neg]
      have hlapsed := h.of_inactive hactive told rfl
      omega
  | true =>
    obtain ⟨told, rfl, hname, huntil⟩ := h.of_active hactive
    simp only [Bool.not_true, Bool.false_eq_true, if_false, h.seconds_eq huntil]
    by_cases hleft : 1 ≤ told.secondsLeft now
    · have hpositive : ¬ told.secondsLeft now = 0 := by omega
      have hmax : max 0 (told.secondsLeft now) = told.secondsLeft now := by omega
      rw [hmax]
      constructor
      · exact ⟨h.past, h.bounded, fun _ ↦ ⟨told, rfl, hname, huntil⟩,
          fun hoff ↦ by simp [hpositive] at hoff⟩
      · simp only [DisconnectOverlayState.shown, if_neg hpositive, hname, Option.bind_some,
          Absence.shown, if_pos hleft]
        rfl
    · have hzero : max 0 (told.secondsLeft now) = 0 := by omega
      constructor
      · refine ⟨h.past, h.bounded, fun hon ↦ by simp [hzero] at hon, fun _ other hmem ↦ ?_⟩
        obtain rfl := Option.some.inj hmem
        exact not_le.1 hleft
      · simp [DisconnectOverlayState.shown, Absence.shown, hzero, hleft]

theorem Reflects.step (h : Reflects overlay absence now) (op : Op) (hlater : now ≤ op.time) :
    Reflects (overlay.step op) (Absence.learn absence op) op.time := by
  cases op with
  | message json time => exact (h.mono hlater).applyMessage json
  | frame time => exact (h.mono hlater).updateCountdown.1

/-- The clock never goes back. -/
abbrev Ordered (ops : List Op) : Prop := (ops.map Op.time).Pairwise (· ≤ ·)

theorem reflects_run {ops : List Op} (h : Reflects overlay absence now)
    (hordered : (now :: ops.map Op.time).Pairwise (· ≤ ·)) {later : TimePoint}
    (hlater : ∀ time ∈ now :: ops.map Op.time, time ≤ later) :
    Reflects (overlay.run ops) (ops.foldl Absence.learn absence) later := by
  induction ops generalizing overlay absence now with
  | nil => exact h.mono (hlater now (List.mem_cons_self ..))
  | cons op ops ih =>
    have hnow : now ≤ op.time := (List.pairwise_cons.1 hordered).1 _ (List.mem_cons_self ..)
    exact ih (h.step op hnow) (List.pairwise_cons.1 hordered).2
      fun time hmem ↦ hlater time (List.mem_cons_of_mem _ hmem)

/-- Ann has twenty seconds to come back. -/
def annIsAway : List Op :=
  [.message (serializePlayerDisconnected "ann".toList "white".toList 20) 0, .frame 16000000]

example : (run {} (annIsAway ++ [.frame 5500000000])).shown = some ("ann".toList, 14) := by
  decide +kernel

end DisconnectOverlayState

end KongFuChess.View
