import KongFuChess.Library.Transition
import Mathlib.Data.List.Basic
import Mathlib.Data.List.Pairwise

/-!
# The event bus

Subscribers are called in the order in which they have subscribed. Subscriptions are numbered from
one and the numbers are not used again, so a subscriber is called from its subscription on until the
number it was given is unsubscribed, and is not touched by what others do with theirs.
-/

namespace KongFuChess.Events

structure Subscription (Handler : Type*) where
  id : ℕ := 0
  handler : Handler
deriving DecidableEq, Repr

structure EventBus (Handler : Type*) where
  subscriptions : List (Subscription Handler) := []
  nextId : ℕ := 1
deriving DecidableEq, Repr

namespace EventBus

variable {Handler : Type*}

def subscribe (bus : EventBus Handler) (handler : Handler) : ℕ × EventBus Handler :=
  (bus.nextId,
    { subscriptions := bus.subscriptions ++ [⟨bus.nextId, handler⟩], nextId := bus.nextId + 1 })

def unsubscribe (bus : EventBus Handler) (id : ℕ) : EventBus Handler :=
  { bus with subscriptions := bus.subscriptions.filter fun subscription ↦ subscription.id ≠ id }

section Publish

variable {World Event Payload Effect : Type*}

/-- Call the handlers one after another, and collect what they do in the present state of the
program. -/
def publish (bus : EventBus (World → Event → List Effect)) (world : World) (event : Event) :
    List Effect :=
  bus.subscriptions.flatMap fun subscription ↦ subscription.handler world event

/-- The handler of a subscriber to one type of events. -/
def typed (getIf : Event → Option Payload) (handler : World → Payload → List Effect) :
    World → Event → List Effect :=
  fun world event ↦
    match getIf event with
    | some payload => handler world payload
    | none => []

end Publish

/-! ## Numbers -/

/-- The numbers are positive, increase, and are smaller than the next one. -/
structure Numbered (bus : EventBus Handler) : Prop where
  increasing : bus.subscriptions.Pairwise fun first second ↦ first.id < second.id
  positive : ∀ subscription ∈ bus.subscriptions, 0 < subscription.id
  below : ∀ subscription ∈ bus.subscriptions, subscription.id < bus.nextId
  next_pos : 0 < bus.nextId

theorem numbered_empty : ({} : EventBus Handler).Numbered where
  increasing := .nil
  positive := fun _ hmem ↦ absurd hmem List.not_mem_nil
  below := fun _ hmem ↦ absurd hmem List.not_mem_nil
  next_pos := Nat.one_pos

namespace Numbered

variable {bus : EventBus Handler}

theorem subscribe (h : bus.Numbered) (handler : Handler) : (bus.subscribe handler).2.Numbered where
  increasing := by
    rw [EventBus.subscribe, List.pairwise_append]
    refine ⟨h.increasing, List.pairwise_singleton _ _, fun subscription hmem other hother ↦ ?_⟩
    rw [List.mem_singleton.1 hother]
    exact h.below subscription hmem
  positive := by
    intro subscription hmem
    rcases List.mem_append.1 hmem with hold | hnew
    · exact h.positive subscription hold
    · rw [List.mem_singleton.1 hnew]
      exact h.next_pos
  below := by
    intro subscription hmem
    rcases List.mem_append.1 hmem with hold | hnew
    · exact Nat.lt_succ_of_lt (h.below subscription hold)
    · rw [List.mem_singleton.1 hnew]
      exact Nat.lt_succ_self _
  next_pos := Nat.succ_pos _

theorem unsubscribe (h : bus.Numbered) (id : ℕ) : (bus.unsubscribe id).Numbered where
  increasing := h.increasing.sublist List.filter_sublist
  positive := fun subscription hmem ↦ h.positive subscription (List.mem_filter.1 hmem).1
  below := fun subscription hmem ↦ h.below subscription (List.mem_filter.1 hmem).1
  next_pos := h.next_pos

end Numbered

/-- The subscriptions with one number. -/
def withId (bus : EventBus Handler) (id : ℕ) : List (Subscription Handler) :=
  bus.subscriptions.filter fun subscription ↦ subscription.id = id

theorem withId_of_unused {bus : EventBus Handler} (h : bus.Numbered) {id : ℕ}
    (hunused : id = 0 ∨ bus.nextId ≤ id) : bus.withId id = [] := by
  rw [withId, List.filter_eq_nil_iff]
  intro subscription hmem hid
  rw [decide_eq_true_eq] at hid
  have hpositive := h.positive subscription hmem
  have hbelow := h.below subscription hmem
  omega

theorem withId_subscribe {bus : EventBus Handler} (h : bus.Numbered) (handler : Handler)
    (id : ℕ) : (bus.subscribe handler).2.withId id =
      if id = bus.nextId then [⟨bus.nextId, handler⟩] else bus.withId id := by
  rw [withId, subscribe, List.filter_append]
  split
  · rename_i hid
    subst hid
    have hnone := withId_of_unused h (.inr (Nat.le_refl bus.nextId))
    rw [withId] at hnone
    rw [hnone, List.nil_append, List.filter_cons_of_pos (by simp), List.filter_nil]
  · rename_i hid
    rw [List.filter_cons_of_neg (by simpa using Ne.symm hid), List.filter_nil, List.append_nil]
    rfl

theorem withId_unsubscribe (bus : EventBus Handler) (removed id : ℕ) :
    (bus.unsubscribe removed).withId id = if id = removed then [] else bus.withId id := by
  rw [withId, unsubscribe, List.filter_filter]
  split
  · rename_i hid
    rw [List.filter_eq_nil_iff]
    intro subscription _ hboth
    simp only [hid, ne_eq, Bool.and_eq_true, decide_eq_true_eq] at hboth
    exact hboth.2 hboth.1
  · rename_i hid
    apply List.filter_congr
    intro subscription _
    by_cases heq : subscription.id = id
    · simp [heq, hid]
    · simp [heq]

end EventBus

end KongFuChess.Events
