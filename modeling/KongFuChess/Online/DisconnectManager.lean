import KongFuChess.Library.Table
import KongFuChess.Online.MatchmakingQueue

/-!
# The disconnect manager

Players who have lost their connection have some time to come back before the game is given to the
opponent.
-/

namespace KongFuChess.Session

open Model Matchmaking

structure DisconnectGraceEntry where
  username : StdString
  color : Color := .white
  connectionId : ConnectionId := 0
  disconnectedAt : TimePoint
  graceUntil : TimePoint
deriving DecidableEq, Repr

structure DisconnectManager where
  graceEntries : Table StdString DisconnectGraceEntry := ∅

namespace DisconnectManager

def onDisconnect (manager : DisconnectManager) (entry : DisconnectGraceEntry) :
    DisconnectManager :=
  { manager with graceEntries := manager.graceEntries.insert entry.username entry }

def onReconnect (manager : DisconnectManager) (username : StdString) : DisconnectManager :=
  { manager with graceEntries := manager.graceEntries.erase username }

def isInGrace (manager : DisconnectManager) (username : StdString) : Bool :=
  (manager.graceEntries.lookup username).isSome

def graceEntryFor (manager : DisconnectManager) (username : StdString) :
    Option DisconnectGraceEntry :=
  manager.graceEntries.lookup username

/-- The key and the entry, if its time is over. -/
def expiredEntry (manager : DisconnectManager) (now : TimePoint) (username : StdString) :
    Option (StdString × DisconnectGraceEntry) :=
  match manager.graceEntries.lookup username with
  | some entry => if now ≥ entry.graceUntil then some (username, entry) else none
  | none => none

/-- The first expired entry is dropped and its opponent wins. A hash table may be traversed in any
order: the traversal begins with the given usernames. -/
def tick (manager : DisconnectManager) (now : TimePoint) (order : List StdString) :
    Option Color × DisconnectManager :=
  match (order ++ manager.graceEntries.keys).findSome? (manager.expiredEntry now) with
  | some (username, entry) =>
    (some entry.color.opposite,
      { manager with graceEntries := manager.graceEntries.erase username })
  | none => (none, manager)

/-- What a tick can do. -/
theorem tick_cases (manager : DisconnectManager) (now : TimePoint) (order : List StdString) :
    manager.tick now order = (none, manager) ∧
        (∀ username entry, manager.graceEntryFor username = some entry → now < entry.graceUntil) ∨
      ∃ username entry, manager.graceEntryFor username = some entry ∧ entry.graceUntil ≤ now ∧
        manager.tick now order = (some entry.color.opposite, manager.onReconnect username) := by
  unfold tick
  split
  · rename_i username entry hfound
    obtain ⟨name, -, hname⟩ := List.exists_of_findSome?_eq_some hfound
    unfold expiredEntry at hname
    split at hname
    · rename_i expired hlookup
      split at hname
      · rename_i hover
        obtain ⟨rfl, rfl⟩ := Prod.mk.inj (Option.some.inj hname)
        exact .inr ⟨name, expired, hlookup, hover, rfl⟩
      · exact absurd hname nofun
    · exact absurd hname nofun
  · rename_i hnone
    rw [List.findSome?_eq_none_iff] at hnone
    refine .inl ⟨rfl, fun username entry hentry ↦ ?_⟩
    have hmem : username ∈ manager.graceEntries.keys :=
      AList.lookup_isSome.1 (Option.isSome_iff_exists.2 ⟨entry, hentry⟩)
    have hrunning := hnone username (List.mem_append_right _ hmem)
    rw [expiredEntry,
      show manager.graceEntries.lookup username = some entry from hentry] at hrunning
    simp only [ge_iff_le, ite_eq_right_iff, reduceCtorEq, imp_false, not_le] at hrunning
    exact hrunning

end DisconnectManager

end KongFuChess.Session
