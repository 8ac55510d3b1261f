import NanoVNA.GuardedRun
import NanoVNA.EventBus

namespace NanoVNA.EventBusCalls

open NanoVNA.EventBus NanoVNA.Slots

/-- A call in progress. `seq` is the number of a message in the order of the queue, `n` a node
and `i` the next subscription to look at. -/
inductive Op
  | publishing (isr : Bool) (message : Message)
  | allocated (isr : Bool) (n : Nat) (message : Message)
  | rejected (isr : Bool) (n : Nat) (message : Message)
  | calling (message : Message) (i : Nat) (called : List Nat)
  | fetching
  | fetched (seq n : Nat)
  | dispatching (seq n : Nat) (message : Message) (i : Nat) (called : List Nat)
  | releasing (seq n : Nat) (message : Message) (called : List Nat)
  deriving DecidableEq, Repr

def Op.node : Op → Option Nat
  | .allocated _ n _ | .rejected _ n _ | .fetched _ n | .dispatching _ n _ _ _
  | .releasing _ n _ _ => some n
  | .publishing _ _ | .calling _ _ _ | .fetching => none

def Op.seq : Op → Option Nat
  | .fetched seq _ | .dispatching seq _ _ _ _ | .releasing seq _ _ _ => some seq
  | .publishing _ _ | .allocated _ _ _ | .rejected _ _ _ | .calling _ _ _ | .fetching => none

structure Delivery where
  seq : Nat
  message : Message
  called : List Nat
  deriving DecidableEq, Repr

/-- The bus, the calls in progress and what has gone through the queue so far: every message
put into it, how many were taken out, and the dispatches that have returned. -/
structure State where
  bus : Bus
  ops : List Op
  queued : List Message
  fetches : Nat
  deliveries : List Delivery
  deriving DecidableEq, Repr

inductive Action
  | publish (message : Message)
  | publishFromIsr (message : Message)
  | dispatch
  | run (k : Nat)
  deriving DecidableEq, Repr

/-- Without a queue the message goes to the subscribers at once. -/
def startPublish (isr : Bool) (message : Message) (bus : Bus) : Op :=
  if bus.mailboxReady then .publishing isr message else .calling message 0 []

/-- The next step of a call: what it does to the rest of the state, and how the call goes on. -/
def advance (s : State) : Op → State × Option Op
  | .publishing isr message =>
    match allocNode message s.bus with
    | none => (s, none)
    | some (n, bus) => ({ s with bus := bus }, some (.allocated isr n message))
  | .allocated isr n message =>
    match post n s.bus with
    | none => (s, some (.rejected isr n message))
    | some bus => ({ s with bus := bus, queued := s.queued ++ [message] }, none)
  | .rejected isr n message =>
    ({ s with bus := release n s.bus }, if isr then none else some (.calling message 0 []))
  | .calling message i called =>
    if i < s.bus.subscriptions.length then
      (s, some (.calling message (i + 1) (visitSlot s.bus.subscriptions message i called)))
    else (s, none)
  | .fetching =>
    match fetch s.bus with
    | none => (s, none)
    | some (n, bus) =>
      ({ s with bus := bus, fetches := s.fetches + 1 }, some (.fetched s.fetches n))
  | .fetched seq n =>
    match messageOf s.bus n with
    | none => (s, some (.fetched seq n))
    | some message => (s, some (.dispatching seq n message 0 []))
  | .dispatching seq n message i called =>
    if i < s.bus.subscriptions.length then
      (s, some (.dispatching seq n message (i + 1)
        (visitSlot s.bus.subscriptions message i called)))
    else (s, some (.releasing seq n message called))
  | .releasing seq n message called =>
    ({ s with bus := release n s.bus, deliveries := s.deliveries ++ [⟨seq, message, called⟩] },
      none)

def step (s : State) : Action → Option State
  | .publish message => some { s with ops := s.ops ++ [startPublish false message s.bus] }
  | .publishFromIsr message => some { s with ops := s.ops ++ [startPublish true message s.bus] }
  | .dispatch => some (if s.bus.mailboxReady then { s with ops := s.ops ++ [.fetching] } else s)
  | .run k =>
    match s.ops[k]? with
    | none => none
    | some op =>
      let (s', next) := advance s op
      some { s' with ops := replace s.ops k next }

/-- One entry of a list of `event_bus_subscribe` calls. -/
structure Request where
  topic : Topic
  listener : Option Nat
  userData : Nat
  deriving DecidableEq, Repr

def subscribeAll (requests : List Request) (bus : Bus) : Bus :=
  requests.foldl (fun bus r => (eventBusSubscribe r.topic r.listener r.userData bus).1) bus

/-- A bus as a program sets it up: its storage, and the subscriptions it asks for. -/
def configured (capacity queueLength nodeCount : Nat) (requests : List Request) : Bus :=
  subscribeAll requests (eventBusInit capacity queueLength nodeCount)

def initial (bus : Bus) : State := ⟨bus, [], [], 0, []⟩

def OpOk (bus : Bus) (queued : List Message) : Op → Prop
  | .allocated _ n message => messageOf bus n = some message
  | .calling message i called => called = visitSlots bus.subscriptions message i
  | .fetched seq n => ∃ message, queued[seq]? = some message ∧ messageOf bus n = some message
  | .dispatching seq _ message i called =>
    queued[seq]? = some message ∧ i ≤ bus.subscriptions.length ∧
      called = visitSlots bus.subscriptions message i
  | .releasing seq _ message called =>
    queued[seq]? = some message ∧ called = subscribersOf bus.subscriptions message
  | .publishing _ _ | .rejected _ _ _ | .fetching => True

/-- The nodes in use are those queued and those held by a call, each once; the messages taken
out of the queue are those of the dispatches, each once; the others wait in order. -/
structure Inv (s : State) : Prop where
  nodes : (s.bus.mailbox ++ s.ops.filterMap Op.node).Perm (nodesInUse s.bus)
  seqs : (s.deliveries.map Delivery.seq ++ s.ops.filterMap Op.seq).Perm (List.range s.fetches)
  order : s.bus.mailbox.map (messageOf s.bus) = (s.queued.drop s.fetches).map some
  fetches : s.fetches ≤ s.queued.length
  ops : ∀ op ∈ s.ops, OpOk s.bus s.queued op
  deliveries : ∀ d ∈ s.deliveries,
    s.queued[d.seq]? = some d.message ∧ d.called = subscribersOf s.bus.subscriptions d.message

section Configured

variable (capacity queueLength nodeCount : Nat)

theorem subscribe_frame (topic : Topic) (listener : Option Nat) (userData : Nat) (bus : Bus) :
    (eventBusSubscribe topic listener userData bus).1.mailbox = bus.mailbox ∧
      (eventBusSubscribe topic listener userData bus).1.nodes = bus.nodes := by
  unfold eventBusSubscribe
  cases listener with
  | none => exact ⟨rfl, rfl⟩
  | some listener =>
    dsimp only
    split <;> exact ⟨rfl, rfl⟩

theorem subscribeAll_frame (requests : List Request) (bus : Bus) :
    (subscribeAll requests bus).mailbox = bus.mailbox ∧
      (subscribeAll requests bus).nodes = bus.nodes := by
  induction requests generalizing bus with
  | nil => exact ⟨rfl, rfl⟩
  | cons r requests ih =>
    obtain ⟨hbox, hnodes⟩ := subscribe_frame r.topic r.listener r.userData bus
    obtain ⟨hbox', hnodes'⟩ := ih (eventBusSubscribe r.topic r.listener r.userData bus).1
    exact ⟨hbox'.trans hbox, hnodes'.trans hnodes⟩

theorem mailbox_configured (requests : List Request) :
    (configured capacity queueLength nodeCount requests).mailbox = [] :=
  (subscribeAll_frame requests (eventBusInit capacity queueLength nodeCount)).1

theorem nodesInUse_configured (requests : List Request) :
    nodesInUse (configured capacity queueLength nodeCount requests) = [] := by
  obtain ⟨-, hnodes⟩ := subscribeAll_frame requests (eventBusInit capacity queueLength nodeCount)
  rw [List.eq_nil_iff_forall_not_mem]
  intro i hi
  obtain ⟨node, hnode, hused⟩ := (mem_marked _).mp hi
  have hmem := List.mem_of_getElem? (hnodes ▸ hnode)
  rw [List.eq_of_mem_replicate hmem] at hused
  cases hused

theorem initial_inv (requests : List Request) :
    Inv (initial (configured capacity queueLength nodeCount requests)) := by
  have hbox := mailbox_configured capacity queueLength nodeCount requests
  have hfree := nodesInUse_configured capacity queueLength nodeCount requests
  refine ⟨?_, List.Perm.refl _, ?_, Nat.le_refl _, ?_, ?_⟩
  · simp only [initial, hfree]
    exact List.Perm.of_eq (congrArg (fun box => box ++ []) hbox)
  · exact congrArg (List.map _) hbox
  · exact fun op hop => absurd hop List.not_mem_nil
  · exact fun d hd => absurd hd List.not_mem_nil

end Configured

end NanoVNA.EventBusCalls
