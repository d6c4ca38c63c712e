import KongFuChess.Library.Transition
import KongFuChess.Library.WaitingList
import KongFuChess.Io.Algebraic
import Mathlib.Algebra.Order.Group.Multiset

/-!
# The matchmaking queue

Ratings are integers, and points of the steady clock are counted in nanoseconds.
-/

namespace KongFuChess.Matchmaking

open WaitingList

abbrev ConnectionId := ℕ

/-- A point of the steady clock. -/
abbrev TimePoint := ℤ

def milliseconds (count : ℤ) : ℤ := count * 1000000

structure QueueEntry where
  connectionId : ConnectionId
  username : StdString
  elo : ℤ := 1200
  enqueuedAt : TimePoint
deriving DecidableEq, Repr

structure MatchResult where
  white : QueueEntry
  black : QueueEntry
deriving DecidableEq, Repr

structure MatchmakingQueue where
  eloMatchRange : ℤ := 100
  queueTimeoutMs : ℤ := 60000
  queue : List QueueEntry := []
deriving DecidableEq, Repr

namespace MatchmakingQueue

def isEligible (matchmaking : MatchmakingQueue) (a b : QueueEntry) : Bool :=
  |a.elo - b.elo| ≤ matchmaking.eloMatchRange

/-- The first eligible entry is matched with the new one and leaves the queue. -/
def enqueue (matchmaking : MatchmakingQueue) (entry : QueueEntry) :
    Option MatchResult × MatchmakingQueue :=
  match matchmaking.queue.find? fun waiting ↦ matchmaking.isEligible waiting entry with
  | some waiting =>
    (some ⟨waiting, entry⟩,
      { matchmaking with
        queue := matchmaking.queue.eraseP fun waiting ↦ matchmaking.isEligible waiting entry })
  | none => (none, { matchmaking with queue := matchmaking.queue ++ [entry] })

def remove (matchmaking : MatchmakingQueue) (connectionId : ConnectionId) :
    Bool × MatchmakingQueue :=
  match matchmaking.queue.find? fun entry ↦ entry.connectionId = connectionId with
  | none => (false, matchmaking)
  | some _ =>
    (true,
      { matchmaking with
        queue := matchmaking.queue.eraseP fun entry ↦ entry.connectionId = connectionId })

def contains (matchmaking : MatchmakingQueue) (connectionId : ConnectionId) : Bool :=
  matchmaking.queue.any fun entry ↦ entry.connectionId = connectionId

def hasTimedOut (matchmaking : MatchmakingQueue) (now : TimePoint) (entry : QueueEntry) : Bool :=
  now - entry.enqueuedAt ≥ milliseconds matchmaking.queueTimeoutMs

/-- The expired entries are returned and the others stay in their order. -/
def tick (matchmaking : MatchmakingQueue) (now : TimePoint) :
    List QueueEntry × MatchmakingQueue :=
  (matchmaking.queue.filter (matchmaking.hasTimedOut now),
    { matchmaking with
      queue := matchmaking.queue.filter fun entry ↦ !matchmaking.hasTimedOut now entry })

/-! ## What each operation does -/

section Operations

variable (matchmaking : MatchmakingQueue)

theorem enqueue_eq (entry : QueueEntry) :
    matchmaking.enqueue entry =
      ((partner matchmaking.isEligible matchmaking.queue entry).map fun waiting ↦ ⟨waiting, entry⟩,
        { matchmaking with
          queue := enter matchmaking.isEligible matchmaking.queue entry }) := by
  unfold enqueue enter partner
  split
  · rename_i heq
    simp only [heq, Option.map_some]
  · rename_i heq
    simp only [heq, Option.map_none]

theorem remove_snd (connectionId : ConnectionId) :
    (matchmaking.remove connectionId).2 =
      { matchmaking with
        queue := matchmaking.queue.eraseP fun entry ↦ entry.connectionId = connectionId } := by
  unfold remove
  split
  · rename_i hnone
    rw [List.eraseP_of_forall_not (List.find?_eq_none.1 hnone)]
  · rfl

/-- Where every connection has at most one entry, no entry of a removed connection stays. -/
theorem connectionId_ne_of_mem_remove
    (h : matchmaking.queue.Pairwise fun first second ↦ first.connectionId ≠ second.connectionId)
    {connectionId : ConnectionId} {entry : QueueEntry}
    (hmem : entry ∈ (matchmaking.remove connectionId).2.queue) :
    entry.connectionId ≠ connectionId := by
  unfold remove at hmem
  split at hmem
  · rename_i hnone
    exact of_decide_eq_false (Bool.eq_false_iff.2 (List.find?_eq_none.1 hnone entry hmem))
  · rename_i chosen hfind
    have hchosen : chosen.connectionId = connectionId := by
      simpa using List.find?_some hfind
    rw [← hchosen]
    exact key_ne_of_mem_eraseP h hfind hmem

theorem mem_of_mem_remove {connectionId : ConnectionId} {entry : QueueEntry}
    (hmem : entry ∈ (matchmaking.remove connectionId).2.queue) : entry ∈ matchmaking.queue := by
  rw [remove_snd] at hmem
  exact List.mem_of_mem_eraseP hmem

/-- A match is made with the first waiting entry within the range, and with nobody else. -/
theorem enqueue_eq_some_iff (entry : QueueEntry) (result : MatchResult) :
    (matchmaking.enqueue entry).1 = some result ↔
      result.black = entry ∧
        ∃ earlier later, matchmaking.queue = earlier ++ result.white :: later ∧
          (∀ waiting ∈ earlier, matchmaking.eloMatchRange < |waiting.elo - entry.elo|) ∧
          |result.white.elo - entry.elo| ≤ matchmaking.eloMatchRange := by
  simp only [enqueue_eq, Option.map_eq_some_iff, partner_eq_some_iff, isEligible,
    decide_eq_false_iff_not, not_le, decide_eq_true_eq]
  constructor
  · rintro ⟨waiting, hfirst, rfl⟩
    exact ⟨rfl, hfirst⟩
  · rintro ⟨rfl, hfirst⟩
    exact ⟨result.white, hfirst, rfl⟩

theorem enqueue_eq_none_iff (entry : QueueEntry) :
    (matchmaking.enqueue entry).1 = none ↔
      ∀ waiting ∈ matchmaking.queue, matchmaking.eloMatchRange < |waiting.elo - entry.elo| := by
  simp [enqueue_eq, partner_eq_none_iff, isEligible]

end Operations

/-! ## Runs of the queue -/

inductive Op
  | enqueue (entry : QueueEntry)
  | remove (connectionId : ConnectionId)
  | tick (now : TimePoint)
deriving DecidableEq, Repr

def step (matchmaking : MatchmakingQueue) : Op → MatchmakingQueue
  | .enqueue entry => (matchmaking.enqueue entry).2
  | .remove connectionId => (matchmaking.remove connectionId).2
  | .tick now => (matchmaking.tick now).2

/-- The entry that an operation brings in. -/
def enqueued : Op → Option QueueEntry
  | .enqueue entry => some entry
  | _ => none

/-- The entries that leave in the match that an operation returns. -/
def matched (matchmaking : MatchmakingQueue) : Op → Multiset QueueEntry
  | .enqueue entry =>
    match (matchmaking.enqueue entry).1 with
    | some result => {result.white, result.black}
    | none => 0
  | _ => 0

/-- The entries that an operation returns as expired. -/
def expired (matchmaking : MatchmakingQueue) : Op → Multiset QueueEntry
  | .tick now => (matchmaking.tick now).1
  | _ => 0

/-- The entry that an operation removes. -/
def removed (matchmaking : MatchmakingQueue) : Op → Multiset QueueEntry
  | .remove connectionId =>
    ((matchmaking.queue.find? fun entry ↦ entry.connectionId = connectionId).toList :
      Multiset QueueEntry)
  | _ => 0

section Step

variable (matchmaking : MatchmakingQueue) (op : Op)

theorem eloMatchRange_step : (matchmaking.step op).eloMatchRange = matchmaking.eloMatchRange := by
  cases op with
  | enqueue entry => rw [step, enqueue_eq]
  | remove connectionId => rw [step, remove_snd]
  | tick now => rfl

theorem step_sublist :
    (matchmaking.step op).queue.Sublist (matchmaking.queue ++ (enqueued op).toList) := by
  cases op with
  | enqueue entry =>
    rw [step, enqueue_eq]
    exact enter_sublist
  | remove connectionId =>
    rw [step, remove_snd]
    exact List.eraseP_sublist.trans (List.sublist_append_left ..)
  | tick now => exact List.filter_sublist.trans (List.sublist_append_left ..)

/-- The balance of one operation. -/
theorem step_balance :
    ((matchmaking.step op).queue : Multiset QueueEntry) +
        (matchmaking.matched op + matchmaking.expired op + matchmaking.removed op) =
      (matchmaking.queue : Multiset QueueEntry) + ((enqueued op).toList : Multiset QueueEntry) := by
  cases op with
  | enqueue entry =>
    have hbalance := enter_add_matched matchmaking.isEligible matchmaking.queue entry
    simp only [step, matched, expired, removed, enqueue_eq, enqueued, add_zero]
    cases hpartner : partner matchmaking.isEligible matchmaking.queue entry with
    | none => simpa [hpartner] using hbalance
    | some waiting => simpa [hpartner] using hbalance
  | remove connectionId =>
    simp only [step, matched, expired, removed, remove_snd, enqueued, zero_add]
    simpa using eraseP_add_find? (fun entry ↦ decide (entry.connectionId = connectionId))
      matchmaking.queue
  | tick now =>
    simp only [step, matched, expired, removed, tick, enqueued, zero_add, add_zero]
    simpa using filter_add_filter (matchmaking.hasTimedOut now) matchmaking.queue

end Step

/-- The entries of the queue are pairwise out of range of each other. -/
def NobodySuits (matchmaking : MatchmakingQueue) : Prop :=
  matchmaking.queue.Pairwise fun first second ↦ matchmaking.eloMatchRange < |first.elo - second.elo|

theorem NobodySuits.step {matchmaking : MatchmakingQueue} (h : matchmaking.NobodySuits) (op : Op) :
    (matchmaking.step op).NobodySuits := by
  have heligible : ∀ queue : List QueueEntry,
      (queue.Pairwise fun first second ↦ matchmaking.eloMatchRange < |first.elo - second.elo|) ↔
        queue.Pairwise fun first second ↦ matchmaking.isEligible first second = false := by
    intro queue
    simp only [isEligible, decide_eq_false_iff_not, not_le]
  rw [NobodySuits, eloMatchRange_step, heligible]
  rw [NobodySuits, heligible] at h
  cases op with
  | enqueue entry =>
    rw [MatchmakingQueue.step, enqueue_eq]
    exact pairwise_enter h
  | remove connectionId =>
    rw [MatchmakingQueue.step, remove_snd]
    exact h.sublist List.eraseP_sublist
  | tick now => exact h.sublist List.filter_sublist

/-- The queue keeps the order in which its entries were enqueued. -/
theorem run_sublist (matchmaking : MatchmakingQueue) (ops : List Op) :
    (Transition.run step matchmaking ops).queue.Sublist
      (matchmaking.queue ++ ops.filterMap enqueued) := by
  induction ops generalizing matchmaking with
  | nil => simp
  | cons op ops ih =>
    have hcons : (op :: ops).filterMap enqueued =
        (enqueued op).toList ++ ops.filterMap enqueued := by
      cases henqueued : enqueued op <;> simp [henqueued]
    rw [hcons, ← List.append_assoc]
    exact (ih _).trans ((step_sublist matchmaking op).append_right _)

theorem accumulate_enqueued (matchmaking : MatchmakingQueue) (ops : List Op) :
    Transition.accumulate step (fun _ op ↦ ((enqueued op).toList : Multiset QueueEntry)) matchmaking
      ops = (ops.filterMap enqueued : Multiset QueueEntry) := by
  induction ops generalizing matchmaking with
  | nil => rfl
  | cons op ops ih =>
    rw [Transition.accumulate_cons, ih]
    cases henqueued : enqueued op <;> simp [henqueued]

/-- Nobody waits beside an eligible opponent and nobody is lost: whatever is done with an empty
queue, its entries are pairwise out of range and in the order in which they were enqueued, the next
match is made with the first waiting entry within the range and only if there is none is no match
made, and every entry that was ever enqueued is still waiting, in a returned match, returned as
expired, or removed, and only one of these. -/
theorem run_accounts (eloMatchRange queueTimeoutMs : ℤ) (ops : List Op) :
    let initial : MatchmakingQueue := ⟨eloMatchRange, queueTimeoutMs, []⟩
    let reached := Transition.run step initial ops
    (reached.queue.Pairwise fun first second ↦ eloMatchRange < |first.elo - second.elo|) ∧
      (∀ entry result, (reached.enqueue entry).1 = some result ↔
        result.black = entry ∧
          ∃ earlier later, reached.queue = earlier ++ result.white :: later ∧
            (∀ waiting ∈ earlier, eloMatchRange < |waiting.elo - entry.elo|) ∧
            |result.white.elo - entry.elo| ≤ eloMatchRange) ∧
      (∀ entry, (reached.enqueue entry).1 = none ↔
        ∀ waiting ∈ reached.queue, eloMatchRange < |waiting.elo - entry.elo|) ∧
      reached.queue.Sublist (ops.filterMap enqueued) ∧
      (reached.queue : Multiset QueueEntry) +
          (Transition.accumulate step matched initial ops +
            Transition.accumulate step expired initial ops +
            Transition.accumulate step removed initial ops) =
        (ops.filterMap enqueued : Multiset QueueEntry) := by
  intro initial reached
  have hrange : reached.eloMatchRange = eloMatchRange :=
    Transition.run_invariant step (I := fun matchmaking ↦
      matchmaking.eloMatchRange = eloMatchRange)
      (fun matchmaking op h ↦ (matchmaking.eloMatchRange_step op).trans h) rfl ops
  have hsuits : reached.NobodySuits :=
    Transition.run_invariant step (fun _ op h ↦ h.step op) List.Pairwise.nil ops
  have hbalance := Transition.accumulate_balance step
    (fun matchmaking : MatchmakingQueue ↦ (matchmaking.queue : Multiset QueueEntry))
    (fun _ op ↦ ((enqueued op).toList : Multiset QueueEntry))
    (fun matchmaking op ↦ matchmaking.matched op + matchmaking.expired op + matchmaking.removed op)
    (I := fun _ ↦ True) (fun _ _ _ ↦ trivial) (fun matchmaking op _ ↦ matchmaking.step_balance op)
    initial trivial ops
  rw [accumulate_enqueued, Transition.accumulate_add, Transition.accumulate_add] at hbalance
  refine ⟨?_, ?_, ?_, ?_, ?_⟩
  · rwa [NobodySuits, hrange] at hsuits
  · intro entry result
    rw [enqueue_eq_some_iff, hrange]
  · intro entry
    rw [enqueue_eq_none_iff, hrange]
  · exact run_sublist initial ops
  · exact hbalance.trans (Multiset.zero_add _)

end MatchmakingQueue

end KongFuChess.Matchmaking
