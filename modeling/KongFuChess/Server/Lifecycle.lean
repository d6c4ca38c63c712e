import KongFuChess.Events.EventBus
import KongFuChess.Server.Run

/-!
# Starting and stopping the server

The server subscribes to the bus while it is running, with a handler that broadcasts every event to
the clients registered at that time. A start can fail at two points, and each failure undoes what
has been done before it. Over any sequence of starts and stops the server has one subscription while
it runs and none otherwise, the network library is released as often as it has been initialised, and
the other subscribers of the bus are called as if there were no server.
-/

namespace KongFuChess.Network

open Model Events Session Matchmaking

/-- What a subscriber of the bus sends and records. -/
abbrev Handler := WsServer → GameEvent → List Output

inductive NetCall
  | initNetSystem
  | uninitNetSystem
deriving DecidableEq, Repr

namespace WsServer

def handleBusEvent (server : WsServer) (event : GameEvent) : List Output :=
  server.broadcast (.gameEvent event)

def clearClients (server : WsServer) : WsServer := { server with clients := [] }

/-- The handlers of the server with the bus that they share with the rest of the program. -/
structure Impl where
  server : WsServer
  bus : EventBus Handler := {}
  /-- The listening socket exists. -/
  listening : Bool := false
  busSubscription : ℕ := 0
  netInitialized : Bool := false
  running : Bool := false

namespace Impl

def uninitNet (impl : Impl) : List NetCall × Impl :=
  if impl.netInitialized then ([.uninitNetSystem], { impl with netInitialized := false })
  else ([], impl)

/-- `initializes` and `listens` are the answers of the network library. -/
def start (impl : Impl) (initializes listens : Bool) : Bool × List NetCall × Impl :=
  if impl.running then (true, [], impl)
  else if !initializes then (false, [], impl)
  else
    let (busSubscription, bus) := impl.bus.subscribe handleBusEvent
    let impl :=
      { impl with
        netInitialized := true
        listening := true
        bus := bus
        busSubscription := busSubscription }
    if !listens then
      let impl :=
        { impl with
          bus := impl.bus.unsubscribe impl.busSubscription
          busSubscription := 0
          listening := false }
      let (calls, impl) := impl.uninitNet
      (false, .initNetSystem :: calls, impl)
    else (true, [.initNetSystem], { impl with running := true })

def stop (impl : Impl) : List NetCall × Impl :=
  if !impl.running && !impl.listening && !impl.netInitialized then ([], impl)
  else
    let impl :=
      if impl.busSubscription ≠ 0 then
        { impl with bus := impl.bus.unsubscribe impl.busSubscription, busSubscription := 0 }
      else impl
    let impl := { impl with listening := false, server := impl.server.clearClients }
    let (calls, impl) := impl.uninitNet
    (calls, { impl with running := false })

/-- An event is published by the engine or by a handler of the server. -/
def publish (impl : Impl) (event : GameEvent) : List Output := impl.bus.publish impl.server event

inductive Op
  | start (initializes listens : Bool)
  | stop
  /-- What clients send and timers do reaches the server while it runs. -/
  | serve (op : WsServer.Op)
  | subscribe (handler : Handler)
  | unsubscribe (id : ℕ)

def perform (impl : Impl) : Op → List NetCall × Impl
  | .start initializes listens => (impl.start initializes listens).2
  | .stop => impl.stop
  | .serve op => ([], if impl.running then { impl with server := impl.server.step op } else impl)
  | .subscribe handler => ([], { impl with bus := (impl.bus.subscribe handler).2 })
  | .unsubscribe id => ([], { impl with bus := impl.bus.unsubscribe id })

def step (impl : Impl) (op : Op) : Impl := (impl.perform op).2

def netCalls (impl : Impl) (op : Op) : List NetCall := (impl.perform op).1

def initial (port : ℤ) : Impl := { server := WsServer.initial port }

abbrev run (impl : Impl) (ops : List Op) : Impl := Transition.run step impl ops

/-- The other parts of the program unsubscribe what is theirs. -/
def LeavesServer (impl : Impl) : Op → Prop
  | .unsubscribe id => id ≠ impl.busSubscription
  | _ => True

instance (impl : Impl) : (op : Op) → Decidable (impl.LeavesServer op)
  | .unsubscribe _ => inferInstanceAs (Decidable (_ ≠ _))
  | .start .. | .stop | .serve _ | .subscribe _ => .isTrue trivial

/-! ## The subscription of the server -/

/-- The subscriptions of the other parts of the program. -/
def others (impl : Impl) : List (Subscription Handler) :=
  impl.bus.subscriptions.filter fun subscription ↦ subscription.id ≠ impl.busSubscription

/-- The server has everything that it needs while it runs, and nothing otherwise. -/
structure Attached (impl : Impl) : Prop where
  numbered : impl.bus.Numbered
  netInitialized : impl.netInitialized = impl.running
  listening : impl.listening = impl.running
  idle : impl.running = false → impl.busSubscription = 0 ∧ impl.server.clients = []
  own : impl.bus.withId impl.busSubscription =
    if impl.running then [⟨impl.busSubscription, handleBusEvent⟩] else []

theorem attached_initial (port : ℤ) : (initial port).Attached where
  numbered := EventBus.numbered_empty
  netInitialized := rfl
  listening := rfl
  idle := fun _ ↦ ⟨rfl, rfl⟩
  own := rfl

/-- All numbers in use differ from a number that is not in use. -/
theorem filter_unused {bus : EventBus Handler} (h : bus.Numbered) {id : ℕ}
    (hunused : id = 0 ∨ bus.nextId ≤ id) :
    (bus.subscriptions.filter fun subscription ↦ subscription.id ≠ id) = bus.subscriptions := by
  rw [List.filter_eq_self]
  intro subscription hmem
  have hpositive := h.positive subscription hmem
  have hbelow := h.below subscription hmem
  rw [decide_eq_true_eq]
  omega

section Start

variable {impl : Impl}

/-- The bus of a failed start is as it was, but for a number that is not used again. -/
theorem unsubscribe_subscribe {bus : EventBus Handler} (h : bus.Numbered) (handler : Handler) :
    (bus.subscribe handler).2.unsubscribe bus.nextId = { bus with nextId := bus.nextId + 1 } := by
  have hkept := filter_unused h (.inr le_rfl)
  rw [EventBus.unsubscribe, EventBus.subscribe]
  simp only [List.filter_append, hkept]
  simp

/-- A start does nothing, starts the server, or undoes what it has done. -/
theorem start_cases (h : impl.Attached) (initializes listens : Bool) :
    (impl.start initializes listens).2 = ([], impl) ∨
    impl.running = false ∧ (impl.start initializes listens).2 =
      ([.initNetSystem],
        { impl with
          netInitialized := true
          listening := true
          bus := (impl.bus.subscribe handleBusEvent).2
          busSubscription := impl.bus.nextId
          running := true }) ∨
    impl.running = false ∧ (impl.start initializes listens).2 =
      ([.initNetSystem, .uninitNetSystem],
        { impl with bus := { impl.bus with nextId := impl.bus.nextId + 1 } }) := by
  obtain ⟨hnumbered, hnet, hlistening, hidle, -⟩ := h
  obtain ⟨server, bus, listening, busSubscription, netInitialized, running⟩ := impl
  cases running with
  | true => exact .inl rfl
  | false =>
    obtain ⟨rfl, -⟩ := hidle rfl
    obtain rfl : netInitialized = false := hnet
    obtain rfl : listening = false := hlistening
    cases initializes with
    | false => exact .inl rfl
    | true =>
      right
      cases listens with
      | true => exact .inl ⟨rfl, rfl⟩
      | false =>
        refine .inr ⟨rfl, ?_⟩
        have hundone : (bus.subscribe handleBusEvent).2.unsubscribe bus.nextId =
            { bus with nextId := bus.nextId + 1 } := unsubscribe_subscribe hnumbered _
        rw [← hundone]
        rfl

/-- A stop puts the server back to where it was before its start. -/
theorem stop_eq (h : impl.Attached) :
    impl.stop = (if impl.running then [.uninitNetSystem] else [],
      { impl with
        server := impl.server.clearClients
        bus := impl.bus.unsubscribe impl.busSubscription
        listening := false
        busSubscription := 0
        netInitialized := false
        running := false }) := by
  obtain ⟨hnumbered, hnet, hlistening, hidle, hown⟩ := h
  obtain ⟨server, bus, listening, busSubscription, netInitialized, running⟩ := impl
  obtain rfl : netInitialized = running := hnet
  obtain rfl : listening = netInitialized := hlistening
  cases listening with
  | false =>
    obtain ⟨rfl, hclients⟩ := hidle rfl
    have hsame : bus.unsubscribe 0 = bus :=
      congrArg (fun subscriptions ↦ { bus with subscriptions := subscriptions })
        (filter_unused hnumbered (.inl rfl))
    have hcleared : server.clearClients = server := by
      rw [clearClients, ← hclients]
    simp only [hsame, hcleared]
    rfl
  | true =>
    have hused : busSubscription ≠ 0 := by
      rintro rfl
      rw [EventBus.withId_of_unused hnumbered (.inl rfl)] at hown
      exact absurd hown (by simp)
    simp only [stop, if_pos hused]
    rfl

end Start

/-! ## Operations -/

section Step

variable {impl : Impl}

theorem Attached.start (h : impl.Attached) (initializes listens : Bool) :
    (impl.start initializes listens).2.2.Attached := by
  rcases start_cases h initializes listens with heq | ⟨-, heq⟩ | ⟨hidle, heq⟩
  · rwa [heq]
  · rw [heq]
    exact
      { numbered := h.numbered.subscribe handleBusEvent
        netInitialized := rfl
        listening := rfl
        idle := fun hstopped ↦ absurd hstopped (by simp)
        own := by
          rw [EventBus.withId_subscribe h.numbered]
          simp }
  · rw [heq]
    have hown := h.own
    exact
      { numbered :=
          { h.numbered with
            below := fun subscription hmem ↦ (h.numbered.below subscription hmem).trans
              (Nat.lt_succ_self _)
            next_pos := Nat.succ_pos _ }
        netInitialized := h.netInitialized
        listening := h.listening
        idle := h.idle
        own := hown }

theorem Attached.stop (h : impl.Attached) : impl.stop.2.Attached := by
  rw [stop_eq h]
  have hnumbered := h.numbered.unsubscribe impl.busSubscription
  exact
    { numbered := hnumbered
      netInitialized := rfl
      listening := rfl
      idle := fun _ ↦ ⟨rfl, rfl⟩
      own := EventBus.withId_of_unused hnumbered (.inl rfl) }

theorem Attached.step (h : impl.Attached) {op : Op} (hleaves : impl.LeavesServer op) :
    (impl.step op).Attached := by
  cases op with
  | start initializes listens => exact h.start initializes listens
  | stop => exact h.stop
  | serve op =>
    simp only [Impl.step, perform]
    split
    · rename_i hrunning
      exact { h with idle := fun hidle ↦ absurd (hrunning.symm.trans hidle) Bool.true_eq_false.mp }
    · exact h
  | subscribe handler =>
    have hother : impl.busSubscription ≠ impl.bus.nextId := by
      intro heq
      have hown := h.own
      rw [heq, EventBus.withId_of_unused h.numbered (.inr le_rfl)] at hown
      cases hrunning : impl.running with
      | true => simp [hrunning] at hown
      | false =>
        have hpos := h.numbered.next_pos
        rw [← heq, (h.idle hrunning).1] at hpos
        exact lt_irrefl _ hpos
    exact
      { h with
        numbered := h.numbered.subscribe handler
        own := by
          change (impl.bus.subscribe handler).2.withId impl.busSubscription = _
          rw [EventBus.withId_subscribe h.numbered, if_neg hother]
          exact h.own }
  | unsubscribe id =>
    exact
      { h with
        numbered := h.numbered.unsubscribe id
        own := by
          change (impl.bus.unsubscribe id).withId impl.busSubscription = _
          rw [EventBus.withId_unsubscribe, if_neg (Ne.symm hleaves)]
          exact h.own }

end Step

/-! ## What is published -/

/-- Every event is handed to the other subscribers in their order. If the server runs, it is
broadcast once, between those whose subscriptions are older and those whose are newer. -/
def Publishes (impl : Impl) : Prop :=
  ∀ event, ∃ before after, impl.others = before ++ after ∧
    (∀ subscription ∈ before, subscription.id < impl.busSubscription) ∧
    (∀ subscription ∈ after, impl.busSubscription < subscription.id) ∧ impl.publish event =
    (before.flatMap fun subscription ↦ subscription.handler impl.server event) ++
      (if impl.running then impl.server.broadcast (.gameEvent event) else []) ++
        after.flatMap fun subscription ↦ subscription.handler impl.server event

theorem Attached.publishes {impl : Impl} (h : impl.Attached) : impl.Publishes := by
  intro event
  have hown := h.own
  cases hrunning : impl.running with
  | false =>
    have hnone : impl.busSubscription = 0 := (h.idle hrunning).1
    have hall : impl.others = impl.bus.subscriptions := by
      rw [others, hnone]
      exact filter_unused h.numbered (.inl rfl)
    refine ⟨[], impl.others, rfl, nofun, ?_, ?_⟩
    · rw [hall, hnone]
      exact h.numbered.positive
    · rw [hall]
      simp [publish, EventBus.publish]
  | true =>
    rw [hrunning, if_pos rfl] at hown
    have hmem : (⟨impl.busSubscription, handleBusEvent⟩ : Subscription Handler) ∈
        impl.bus.subscriptions := by
      apply List.mem_of_mem_filter (p := fun subscription ↦
        decide (subscription.id = impl.busSubscription))
      change _ ∈ impl.bus.withId impl.busSubscription
      rw [hown]
      exact List.mem_singleton_self _
    obtain ⟨before, after, hsplit⟩ := List.append_of_mem hmem
    -- The numbers increase, so no other subscription has the number of the server.
    have hincreasing := h.numbered.increasing
    rw [hsplit, List.pairwise_append, List.pairwise_cons] at hincreasing
    obtain ⟨-, ⟨hafter, -⟩, hbefore⟩ := hincreasing
    have hold : ∀ subscription ∈ before, subscription.id < impl.busSubscription :=
      fun subscription hsubscription ↦ hbefore subscription hsubscription _ List.mem_cons_self
    refine ⟨before, after, ?_, hold, hafter, ?_⟩
    · rw [others, hsplit, List.filter_append, List.filter_cons_of_neg (by simp)]
      congr 1
      · rw [List.filter_eq_self]
        exact fun subscription hsubscription ↦
          decide_eq_true (hold subscription hsubscription).ne
      · rw [List.filter_eq_self]
        exact fun subscription hsubscription ↦
          decide_eq_true (hafter subscription hsubscription).ne'
    · rw [publish, EventBus.publish, hsplit, List.flatMap_append, List.flatMap_cons,
        if_pos rfl, List.append_assoc]
      rfl

/-! ## Runs -/

/-- The operation is not one of another subscriber. -/
def Op.OfServer : Op → Prop
  | .subscribe _ | .unsubscribe _ => False
  | .start .. | .stop | .serve _ => True

/-- What the server does leaves the subscriptions of the others as they are. -/
theorem Attached.others_step {impl : Impl} (h : impl.Attached) {op : Op} (hserver : op.OfServer) :
    (impl.step op).others = impl.others := by
  cases op with
  | start initializes listens =>
    rcases start_cases h initializes listens with heq | ⟨hidle, heq⟩ | ⟨-, heq⟩
    · rw [Impl.step, Impl.perform, heq]
    · have hsubscriptions : impl.others = impl.bus.subscriptions := by
        rw [others, (h.idle hidle).1]
        exact filter_unused h.numbered (.inl rfl)
      have hkept := filter_unused h.numbered (.inr (le_refl impl.bus.nextId))
      rw [hsubscriptions, Impl.step, Impl.perform, heq, others]
      simp only [EventBus.subscribe, List.filter_append, hkept]
      simp
    · rw [Impl.step, Impl.perform, heq]
      rfl
  | stop =>
    have hstopped := h.stop
    rw [Impl.step, Impl.perform, stop_eq h] at *
    exact filter_unused hstopped.numbered (.inl rfl)
  | serve op =>
    simp only [Impl.step, Impl.perform]
    split <;> rfl
  | subscribe handler => exact hserver.elim
  | unsubscribe id => exact hserver.elim

theorem Attached.run {impl : Impl} (h : impl.Attached) {ops : List Op}
    (hleaves : Transition.Along Impl.step LeavesServer impl ops) : (impl.run ops).Attached :=
  hleaves.invariant (I := Attached) (fun _ _ hattached hop ↦ hattached.step hop) h

theorem Attached.others_run {impl : Impl} (h : impl.Attached) {ops : List Op}
    (hserver : ∀ op ∈ ops, op.OfServer) : (impl.run ops).others = impl.others := by
  induction ops generalizing impl with
  | nil => rfl
  | cons op ops ih =>
    have hhead := hserver op List.mem_cons_self
    have hleaves : impl.LeavesServer op := by
      cases op with
      | unsubscribe id => exact hhead.elim
      | _ => trivial
    calc
      ((impl.step op).run ops).others = (impl.step op).others :=
        ih (h.step hleaves) fun later hmem ↦ hserver later (List.mem_cons_of_mem _ hmem)
      _ = impl.others := h.others_step hhead

/-- The calls of a server that does not run any more, `times` times, and then those of its last
start if it still runs. -/
def pairedCalls (times : ℕ) (running : Bool) : List NetCall :=
  (List.replicate times [.initNetSystem, .uninitNetSystem]).flatten ++
    if running then [.initNetSystem] else []

theorem Attached.netCalls_step {impl : Impl} (h : impl.Attached) (op : Op) :
    ∃ times, pairedCalls 0 impl.running ++ impl.netCalls op =
      pairedCalls times (impl.step op).running := by
  cases op with
  | start initializes listens =>
    rcases start_cases h initializes listens with heq | ⟨hidle, heq⟩ | ⟨hidle, heq⟩
    · exact ⟨0, by rw [netCalls, Impl.step, perform, heq, List.append_nil]⟩
    · exact ⟨0, by rw [netCalls, Impl.step, perform, heq, hidle]; rfl⟩
    · exact ⟨1, by rw [netCalls, Impl.step, perform, heq, hidle]; rfl⟩
  | stop =>
    rw [netCalls, Impl.step, perform, stop_eq h]
    cases impl.running with
    | true => exact ⟨1, rfl⟩
    | false => exact ⟨0, rfl⟩
  | serve op =>
    refine ⟨0, ?_⟩
    rw [netCalls, Impl.step, perform, List.append_nil]
    split <;> rfl
  | subscribe | unsubscribe => exact ⟨0, List.append_nil _⟩

theorem Attached.netCalls_run {impl : Impl} (h : impl.Attached) {ops : List Op}
    (hleaves : Transition.Along Impl.step LeavesServer impl ops) :
    ∃ times, pairedCalls 0 impl.running ++ Transition.emissions Impl.step netCalls impl ops =
      pairedCalls times (impl.run ops).running := by
  induction ops generalizing impl with
  | nil => exact ⟨0, List.append_nil _⟩
  | cons op ops ih =>
    obtain ⟨first, hfirst⟩ := h.netCalls_step op
    obtain ⟨later, hlater⟩ := ih (h.step hleaves.1) hleaves.2
    refine ⟨first + later, ?_⟩
    rw [Transition.emissions_cons, ← List.append_assoc, hfirst]
    calc
      pairedCalls first (impl.step op).running ++
          Transition.emissions Impl.step netCalls (impl.step op) ops =
        (List.replicate first [.initNetSystem, .uninitNetSystem]).flatten ++
          pairedCalls later ((impl.step op).run ops).running := by
            rw [← hlater]
            simp [pairedCalls]
      _ = pairedCalls (first + later) ((impl.step op).run ops).running := by
        rw [pairedCalls, pairedCalls, List.replicate_add, List.flatten_append, List.append_assoc]

/-- However the server is started and stopped, an event reaches its clients once while it runs and
the other subscribers as without it, and the network library is released after every failed start
and every stop. -/
theorem lifecycle_run (port : ℤ) {ops : List Op}
    (hleaves : Transition.Along step LeavesServer (initial port) ops) :
    ((initial port).run ops).Publishes ∧
    (∀ later, (∀ op ∈ later, op.OfServer) →
      ((initial port).run (ops ++ later)).others = ((initial port).run ops).others) ∧
    ∃ times, Transition.emissions step netCalls (initial port) ops =
      pairedCalls times ((initial port).run ops).running := by
  have hinitial := attached_initial port
  have hattached : ((initial port).run ops).Attached := hinitial.run hleaves
  refine ⟨hattached.publishes, ?_, ?_⟩
  · intro later hserver
    rw [run, Transition.run_append]
    exact hattached.others_run hserver
  · exact hinitial.netCalls_run hleaves

/-- A start that cannot listen, a second one, a client, a stop, and a third start. -/
def restarts : List Op :=
  [.subscribe fun _ event ↦ [.published event], .start true false, .start true true,
    .serve (.opened 1), .stop, .unsubscribe 7, .start true true]

theorem lifecycle_run_restarts :
    ((initial 8080).run restarts).Publishes ∧
    (∀ later, (∀ op ∈ later, op.OfServer) →
      ((initial 8080).run (restarts ++ later)).others = ((initial 8080).run restarts).others) ∧
    ∃ times, Transition.emissions step netCalls (initial 8080) restarts =
      pairedCalls times ((initial 8080).run restarts).running :=
  lifecycle_run 8080 (by decide)

end Impl

end WsServer

end KongFuChess.Network
