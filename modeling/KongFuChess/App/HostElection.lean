import KongFuChess.Library.Transition
import Mathlib.Data.Multiset.Filter
import Mathlib.Logic.Function.Basic

/-!
# The election of a host

On Windows every instance of the program that may host tries to create a named mutex. The object
exists for as long as some process has a handle of it, and only the process that has created it
hosts. A process that finds it there closes its own handle again, but the two calls are separate,
and other processes act in between. When a process ends, also by a crash, its handles are closed for
it.

There are never two hosts, not even where two servers could listen on one port. But a process that
looks at the mutex keeps it alive while it does, so that another one may lose against nobody. On
other systems nobody is elected: every process that asks may try to listen.

The mutex belongs to the operating system. It is a parameter, and `Documented` says what is known of
it.
-/

namespace KongFuChess.App

/-- How far a process has come in its startup. -/
inductive StartupStage
  | launched
  /-- `CreateMutexW` has returned a handle; `GetLastError` will say whether the mutex existed. -/
  | created (existed : Bool)
  /-- `acquireHostElection` has returned `true`. -/
  | elected
  | hosting
  | client
deriving DecidableEq, Repr

namespace StartupStage

/-- The process has created the mutex, and may be hosting by now. -/
def Leads : StartupStage → Prop
  | .created existed => existed = false
  | .elected | .hosting => True
  | .launched | .client => False

/-- The process has a handle of the mutex: it leads, or it is about to find out that it does not. -/
def HasHandle : StartupStage → Prop
  | .created _ | .elected | .hosting => True
  | .launched | .client => False

theorem Leads.hasHandle {stage : StartupStage} (h : stage.Leads) : stage.HasHandle := by
  cases stage with
  | created | elected | hosting => trivial
  | launched | client => exact h.elim

end StartupStage

/-! ## The mutex -/

/-- The system calls on the mutex of the game, in a state `σ` of the operating system. -/
structure NamedMutex (Process σ : Type*) where
  /-- `CreateMutexW`: no handle, or a handle and whether `GetLastError` says that the mutex existed
  already. -/
  create : Process → σ → Option Bool × σ
  closeHandle : Process → σ → σ
  /-- The process ends. -/
  exit : Process → σ → σ

/-- What the system documents, where `handles` has the owner of every open handle: a call that fails
gives no handle, one that succeeds gives one more and tells whether the object existed; the object
exists as long as there is a handle; and all handles of a process are closed with it. -/
structure NamedMutex.Documented {Process σ : Type*} [DecidableEq Process]
    (mutex : NamedMutex Process σ) (handles : σ → Multiset Process) : Prop where
  created : ∀ process os existed, (mutex.create process os).1 = some existed →
    (existed = true ↔ handles os ≠ 0) ∧
      handles (mutex.create process os).2 = process ::ₘ handles os
  failed : ∀ process os, (mutex.create process os).1 = none →
    handles (mutex.create process os).2 = handles os
  closeHandle : ∀ process os, handles (mutex.closeHandle process os) = (handles os).erase process
  exit : ∀ process os, handles (mutex.exit process os) = (handles os).filter (· ≠ process)

/-- The two implementations of `acquireHostElection` and `releaseHostElection`. -/
inductive Platform
  | windows
  | other
deriving DecidableEq, Repr

/-- The processes and the system on which they run. -/
structure Election (Process σ : Type*) where
  os : σ
  stage : Process → StartupStage := fun _ ↦ .launched

namespace Election

variable {Process σ : Type*} [DecidableEq Process]

inductive Op (Process : Type*)
  /-- `acquireHostElection`, on Windows its first half. -/
  | create (process : Process)
  /-- The second half, in which the handle of an existing mutex is closed. -/
  | inspect (process : Process)
  /-- `WsServer::start`, after whose failure the election is released. -/
  | start (process : Process) (succeeds : Bool)
  /-- A process that was told to be a client takes no part. -/
  | forceClient (process : Process)
  /-- A process ends, and another one may be launched in its place. -/
  | exit (process : Process)
deriving DecidableEq, Repr

variable (platform : Platform) (mutex : NamedMutex Process σ)

def setStage (election : Election Process σ) (process : Process) (stage : StartupStage) :
    Election Process σ :=
  { election with stage := Function.update election.stage process stage }

def acquireHostElection (election : Election Process σ) (process : Process) : Election Process σ :=
  match platform with
  | .windows =>
    let (result, os) := mutex.create process election.os
    { election with os := os }.setStage process
      (match result with
        | none => .client
        | some existed => .created existed)
  | .other => election.setStage process .elected

def closeHandle (election : Election Process σ) (process : Process) : Election Process σ :=
  { election with os := mutex.closeHandle process election.os }

def releaseHostElection (election : Election Process σ) (process : Process) : Election Process σ :=
  match platform with
  | .windows => election.closeHandle mutex process
  | .other => election

def step (election : Election Process σ) : Op Process → Election Process σ
  | .create process =>
    if election.stage process ≠ .launched then election
    else election.acquireHostElection platform mutex process
  | .inspect process =>
    match election.stage process with
    | .created true => (election.closeHandle mutex process).setStage process .client
    | .created false => election.setStage process .elected
    | _ => election
  | .start process succeeds =>
    if election.stage process ≠ .elected then election
    else if succeeds then election.setStage process .hosting
    else (election.releaseHostElection platform mutex process).setStage process .client
  | .forceClient process =>
    if election.stage process ≠ .launched then election else election.setStage process .client
  | .exit process =>
    { election with os := mutex.exit process election.os }.setStage process .launched

abbrev run (election : Election Process σ) (ops : List (Op Process)) : Election Process σ :=
  Transition.run (step platform mutex) election ops

/-! ## One leader -/

/-- The handles are those of the processes that count on one, one for each, and at most one process
leads. -/
structure Sound (handles : σ → Multiset Process) (election : Election Process σ) : Prop where
  nodup : (handles election.os).Nodup
  handles : ∀ process, process ∈ handles election.os ↔ (election.stage process).HasHandle
  leader : ∀ process other, (election.stage process).Leads → (election.stage other).Leads →
    process = other

variable {platform mutex} {handles : σ → Multiset Process} {os : σ}

omit [DecidableEq Process] in
theorem sound_of_free (hfree : handles os = 0) :
    Sound handles ({ os := os } : Election Process σ) where
  nodup := by
    rw [hfree]
    exact Multiset.nodup_zero
  handles := fun process ↦ iff_of_false (hfree ▸ Multiset.notMem_zero process) id
  leader := fun _ _ h ↦ h.elim

section Step

variable {election : Election Process σ} {process : Process}

/-- What one process does keeps the invariant, if it takes the lead only while nobody else has
it. -/
theorem Sound.setStage (h : election.Sound handles) {later : σ} {stage : StartupStage}
    (hnodup : (handles later).Nodup)
    (hother : ∀ other, other ≠ process → (other ∈ handles later ↔ other ∈ handles election.os))
    (hown : process ∈ handles later ↔ stage.HasHandle)
    (hlead : stage.Leads → ∀ other, other ≠ process → ¬ (election.stage other).Leads) :
    ({ election with os := later }.setStage process stage).Sound handles := by
  have hself : Function.update election.stage process stage process = stage :=
    Function.update_self ..
  have hrest : ∀ other, other ≠ process →
      Function.update election.stage process stage other = election.stage other :=
    fun other hne ↦ Function.update_of_ne hne ..
  refine ⟨hnodup, ?_, ?_⟩
  · intro other
    by_cases hne : other = process
    · subst hne
      exact hown.trans (iff_of_eq (congrArg StartupStage.HasHandle hself.symm))
    · exact (hother other hne).trans ((h.handles other).trans
        (iff_of_eq (congrArg StartupStage.HasHandle (hrest other hne).symm)))
  · intro left right hleft hright
    change (Function.update election.stage process stage left).Leads at hleft
    change (Function.update election.stage process stage right).Leads at hright
    by_cases hneLeft : left = process
    · subst hneLeft
      rw [hself] at hleft
      by_contra hne
      rw [hrest right (Ne.symm hne)] at hright
      exact hlead hleft right (Ne.symm hne) hright
    · rw [hrest left hneLeft] at hleft
      by_cases hneRight : right = process
      · subst hneRight
        rw [hself] at hright
        exact absurd hleft (hlead hright left hneLeft)
      · rw [hrest right hneRight] at hright
        exact h.leader left right hleft hright

/-- A process that leaves has no handle any more. -/
theorem Sound.leave (h : election.Sound handles) {later : σ} (hnodup : (handles later).Nodup)
    (hlater : ∀ other, other ∈ handles later ↔ other ≠ process ∧ other ∈ handles election.os)
    {stage : StartupStage} (hstage : ¬ stage.HasHandle) :
    ({ election with os := later }.setStage process stage).Sound handles := by
  apply h.setStage hnodup
  · intro other hne
    rw [hlater, and_iff_right hne]
  · rw [hlater]
    exact iff_of_false (fun hmem ↦ hmem.1 rfl) hstage
  · exact fun hleads ↦ absurd hleads.hasHandle hstage

/-- A process that has no handle can become a client. -/
theorem Sound.giveUp (h : election.Sound handles) (hlaunched : election.stage process = .launched)
    {later : σ} (hlater : handles later = handles election.os) :
    ({ election with os := later }.setStage process .client).Sound handles := by
  apply h.setStage (hlater ▸ h.nodup)
  · intro other _
    rw [hlater]
  · rw [hlater, h.handles, hlaunched]
    exact Iff.rfl
  · exact fun hleads ↦ hleads.elim

/-- A process that has the lead goes on. -/
theorem Sound.proceed (h : election.Sound handles) (hleads : (election.stage process).Leads)
    {stage : StartupStage} (hstage : stage.HasHandle) :
    (election.setStage process stage).Sound handles :=
  h.setStage h.nodup (fun _ _ ↦ Iff.rfl)
    (iff_of_true ((h.handles process).2 hleads.hasHandle) hstage)
    fun _ other hne hother ↦ hne (h.leader other process hother hleads)

variable (hmutex : mutex.Documented handles)
include hmutex

/-- A process closes the one handle that it has. -/
theorem Sound.close (h : election.Sound handles) {stage : StartupStage}
    (hstage : ¬ stage.HasHandle) :
    ((election.closeHandle mutex process).setStage process stage).Sound handles := by
  have hlater := hmutex.closeHandle process election.os
  apply h.leave _ _ hstage
  · rw [hlater]
    exact h.nodup.erase process
  · intro other
    rw [hlater, h.nodup.mem_erase_iff]

theorem Sound.exit (h : election.Sound handles) :
    ({ election with os := mutex.exit process election.os }.setStage process .launched).Sound
      handles := by
  have hlater := hmutex.exit process election.os
  apply h.leave _ _ id
  · rw [hlater]
    exact h.nodup.filter _
  · intro other
    rw [hlater, Multiset.mem_filter, and_comm]

theorem Sound.acquire (h : election.Sound handles)
    (hlaunched : election.stage process = .launched) :
    (election.acquireHostElection .windows mutex process).Sound handles := by
  unfold acquireHostElection
  dsimp only
  cases hresult : (mutex.create process election.os).1 with
  | none => exact h.giveUp hlaunched (hmutex.failed process election.os hresult)
  | some existed =>
    obtain ⟨hexisted, hhandles⟩ := hmutex.created process election.os existed hresult
    have hfresh : process ∉ handles election.os := by
      rw [h.handles, hlaunched]
      exact id
    apply h.setStage
    · rw [hhandles]
      exact Multiset.nodup_cons.2 ⟨hfresh, h.nodup⟩
    · intro other hne
      rw [hhandles, Multiset.mem_cons, or_iff_right hne]
    · rw [hhandles]
      exact iff_of_true (Multiset.mem_cons_self _ _) trivial
    · -- A new mutex means that nobody has a handle, so nobody leads.
      intro hnew other _ hother
      have hmem : other ∈ handles election.os := (h.handles other).2 hother.hasHandle
      have hsome : handles election.os ≠ 0 := fun hzero ↦
        Multiset.notMem_zero other (hzero ▸ hmem)
      exact Bool.false_ne_true (Eq.trans (Eq.symm hnew) (hexisted.2 hsome))

theorem Sound.step (h : election.Sound handles) (op : Op Process) :
    (election.step .windows mutex op).Sound handles := by
  cases op with
  | create process =>
    simp only [Election.step]
    split
    · exact h
    · rename_i hlaunched
      exact h.acquire hmutex (not_not.1 hlaunched)
  | inspect process =>
    simp only [Election.step]
    split
    · exact h.close hmutex id
    · rename_i hcreated
      exact h.proceed (by rw [hcreated]; rfl) trivial
    · exact h
  | start process succeeds =>
    simp only [Election.step]
    split
    · exact h
    · rename_i helected
      rw [not_not] at helected
      split
      · exact h.proceed (by rw [helected]; trivial) trivial
      · exact h.close hmutex id
  | forceClient process =>
    simp only [Election.step]
    split
    · exact h
    · rename_i hlaunched
      exact h.giveUp (not_not.1 hlaunched) rfl
  | exit process => exact h.exit hmutex

end Step

/-- A system that keeps the open handles, and in which no call fails. -/
def handleTable : NamedMutex ℕ (Multiset ℕ) where
  create process handles := (some (decide (handles ≠ 0)), process ::ₘ handles)
  closeHandle process handles := handles.erase process
  exit process handles := handles.filter (· ≠ process)

theorem documented_handleTable : handleTable.Documented id where
  created := by
    rintro process os existed hresult
    refine ⟨?_, rfl⟩
    rw [← Option.some.inj hresult]
    exact decide_eq_true_iff
  failed := fun process os hresult ↦ absurd hresult (Option.some_ne_none _)
  closeHandle := fun _ _ ↦ rfl
  exit := fun _ _ ↦ rfl

/-- The host ends while another process looks at its mutex, and a third one loses against nobody. -/
def looksAndLoses : List (Op ℕ) :=
  [.create 0, .inspect 0, .start 0 true, .create 1, .exit 0, .create 2, .inspect 1, .inspect 2]

end Election

end KongFuChess.App
