import NanoVNA.Slots

namespace NanoVNA.EventBus

open NanoVNA.Slots

/-- `event_bus_topic_t` -/
inductive Topic
  | sweepStarted
  | sweepCompleted
  | touchInput
  | storageUpdated
  | configurationChanged
  | usbCommandPending
  | sweepProgress
  deriving DecidableEq, Repr

/-- The payload is an address the bus only passes on. -/
structure Message where
  topic : Topic
  payload : Nat
  deriving DecidableEq, Repr

structure Subscription where
  callback : Option Nat
  userData : Nat
  topic : Topic
  deriving DecidableEq, Repr

structure Node where
  message : Message
  inUse : Bool
  deriving DecidableEq, Repr

/-- `event_bus_t`. The mailbox holds indices of nodes, the oldest first. -/
structure Bus where
  subscriptions : List Subscription
  capacity : Nat
  mailbox : List Nat
  mailboxReady : Bool
  queueLength : Nat
  nodes : List Node
  deriving DecidableEq, Repr

/-- Storage that is not given has no room. -/
def eventBusInit (capacity queueLength nodeCount : Nat) : Bus where
  subscriptions := []
  capacity := capacity
  mailbox := []
  mailboxReady := 0 < queueLength
  queueLength := queueLength
  nodes := List.replicate nodeCount ⟨⟨.sweepStarted, 0⟩, false⟩

def eventBusSubscribe (topic : Topic) (listener : Option Nat) (userData : Nat) (bus : Bus) :
    Bus × Bool :=
  match listener with
  | none => (bus, false)
  | some listener =>
    if bus.capacity ≤ bus.subscriptions.length then (bus, false)
    else
      ({ bus with subscriptions := bus.subscriptions ++ [⟨some listener, userData, topic⟩] }, true)

section Dispatch

variable (slots : List Subscription) (message : Message)

def wanted (slot : Subscription) : Bool := slot.callback.isSome && slot.topic == message.topic

/-- One round of the loop over the subscriptions; `called` are the slots called so far. -/
def visitSlot (i : Nat) (called : List Nat) : List Nat :=
  if slots[i]?.any (wanted message) then called ++ [i] else called

def visitSlots : Nat → List Nat
  | 0 => []
  | i + 1 => visitSlot slots message i (visitSlots i)

def dispatchToSubscribers : List Nat := visitSlots slots message slots.length

/-- The slots subscribed to the topic of the message, in subscription order. -/
def subscribersOf : List Nat := marked (wanted message) slots

theorem visitSlots_eq (n : Nat) :
    visitSlots slots message n = (List.range n).filter fun i => slots[i]?.any (wanted message) := by
  induction n with
  | zero => rfl
  | succ n ih =>
    rw [visitSlots, visitSlot, ih, List.range_succ, List.filter_append, List.filter_singleton]
    cases slots[n]?.any (wanted message) with
    | true => rfl
    | false => exact (List.append_nil _).symm

theorem dispatch_eq_subscribersOf :
    dispatchToSubscribers slots message = subscribersOf slots message :=
  visitSlots_eq slots message slots.length

end Dispatch

/-- `event_bus_alloc_node`: the first free node takes the message. -/
def allocNode (message : Message) (bus : Bus) : Option (Nat × Bus) :=
  match bus.nodes.findIdx? fun node => !node.inUse with
  | none => none
  | some n => some (n, { bus with nodes := bus.nodes.set n ⟨message, true⟩ })

/-- `chMBPost` without waiting, and `chMBPostI` -/
def post (n : Nat) (bus : Bus) : Option Bus :=
  if bus.mailbox.length < bus.queueLength then some { bus with mailbox := bus.mailbox ++ [n] }
  else none

def fetch (bus : Bus) : Option (Nat × Bus) :=
  match bus.mailbox with
  | [] => none
  | n :: rest => some (n, { bus with mailbox := rest })

def messageOf (bus : Bus) (n : Nat) : Option Message := bus.nodes[n]?.map Node.message

/-- `node->in_use = false` -/
def release (n : Nat) (bus : Bus) : Bus :=
  match bus.nodes[n]? with
  | none => bus
  | some node => { bus with nodes := bus.nodes.set n { node with inUse := false } }

def enqueue (n : Nat) (bus : Bus) : Bus × Bool :=
  match post n bus with
  | some bus => (bus, true)
  | none => (release n bus, false)

/-- The last component is the list of the slots called before the return. -/
def eventBusPublishCommon (fromIsr : Bool) (message : Message) (bus : Bus) :
    Bus × Bool × List Nat :=
  if bus.mailboxReady then
    match allocNode message bus with
    | none => (bus, false, [])
    | some (n, bus) =>
      let (bus, success) := enqueue n bus
      if !success && !fromIsr then (bus, true, dispatchToSubscribers bus.subscriptions message)
      else (bus, success, [])
  else (bus, true, dispatchToSubscribers bus.subscriptions message)

def eventBusPublish (message : Message) (bus : Bus) : Bus × Bool × List Nat :=
  eventBusPublishCommon false message bus

/-- The message dispatched and the slots called, when there was one in time. -/
def eventBusDispatch (bus : Bus) : Bus × Option (Message × List Nat) :=
  if bus.mailboxReady then
    match fetch bus with
    | none => (bus, none)
    | some (n, bus) =>
      match messageOf bus n with
      | none => (bus, none)
      | some message =>
        (release n bus, some (message, dispatchToSubscribers bus.subscriptions message))
  else (bus, none)

section Pool

variable {message : Message} {bus bus' : Bus} {n i : Nat}

def nodesInUse (bus : Bus) : List Nat := marked Node.inUse bus.nodes

theorem alloc_cases (h : allocNode message bus = some (n, bus')) :
    (∃ node, bus.nodes[n]? = some node ∧ node.inUse = false) ∧
      bus' = { bus with nodes := bus.nodes.set n ⟨message, true⟩ } := by
  unfold allocNode at h
  split at h
  · cases h
  · rename_i m hfind
    obtain ⟨rfl, rfl⟩ := Prod.mk.inj (Option.some.inj h)
    obtain ⟨hm, hfree, -⟩ := List.findIdx?_eq_some_iff_getElem.mp hfind
    refine ⟨⟨bus.nodes[m], List.getElem?_eq_getElem hm, ?_⟩, rfl⟩
    simpa only [Bool.not_eq_true'] using hfree

theorem alloc_none_iff : allocNode message bus = none ↔ ∀ node ∈ bus.nodes, node.inUse = true := by
  unfold allocNode
  split
  · rename_i hfind
    rw [List.findIdx?_eq_none_iff] at hfind
    exact ⟨fun _ node hnode => by simpa using hfind node hnode, fun _ => rfl⟩
  · rename_i n hfind
    obtain ⟨hn, hfree, -⟩ := List.findIdx?_eq_some_iff_getElem.mp hfind
    constructor
    · intro h
      cases h
    · intro h
      rw [h _ (List.getElem_mem hn)] at hfree
      cases hfree

theorem nodesInUse_alloc (h : allocNode message bus = some (n, bus')) :
    (nodesInUse bus').Perm (n :: nodesInUse bus) := by
  obtain ⟨⟨node, hnode, hfree⟩, rfl⟩ := alloc_cases h
  exact marked_set hnode hfree rfl

theorem messageOf_alloc (h : allocNode message bus = some (n, bus')) :
    messageOf bus' n = some message := by
  obtain ⟨⟨node, hnode, -⟩, rfl⟩ := alloc_cases h
  obtain ⟨hn, -⟩ := List.getElem?_eq_some_iff.mp hnode
  unfold messageOf
  rw [List.getElem?_set_self hn]
  rfl

theorem messageOf_alloc_other (h : allocNode message bus = some (n, bus'))
    (hi : i ∈ nodesInUse bus) : messageOf bus' i = messageOf bus i := by
  obtain ⟨⟨node, hnode, hfree⟩, rfl⟩ := alloc_cases h
  obtain ⟨used, hused, hp⟩ := (mem_marked _).mp hi
  have hne : n ≠ i := by
    rintro rfl
    obtain rfl : node = used := Option.some.inj (hnode.symm.trans hused)
    rw [hfree] at hp
    cases hp
  unfold messageOf
  rw [List.getElem?_set_ne hne]

theorem alloc_frame (h : allocNode message bus = some (n, bus')) :
    bus'.mailbox = bus.mailbox ∧ bus'.subscriptions = bus.subscriptions := by
  obtain ⟨-, rfl⟩ := alloc_cases h
  exact ⟨rfl, rfl⟩

theorem nodesInUse_release (h : n ∈ nodesInUse bus) :
    (n :: nodesInUse (release n bus)).Perm (nodesInUse bus) := by
  obtain ⟨node, hnode, hused⟩ := (mem_marked _).mp h
  unfold release
  rw [hnode]
  exact marked_unset hnode hused rfl

@[simp] theorem messageOf_release : messageOf (release n bus) i = messageOf bus i := by
  unfold release messageOf
  cases hnode : bus.nodes[n]? with
  | none => rfl
  | some node =>
    by_cases hi : n = i
    · subst hi
      obtain ⟨hn, -⟩ := List.getElem?_eq_some_iff.mp hnode
      rw [List.getElem?_set_self hn, hnode]
      rfl
    · rw [List.getElem?_set_ne hi]

@[simp] theorem mailbox_release : (release n bus).mailbox = bus.mailbox := by
  unfold release
  split <;> rfl

@[simp] theorem subscriptions_release : (release n bus).subscriptions = bus.subscriptions := by
  unfold release
  split <;> rfl

theorem post_cases (h : post n bus = some bus') :
    bus.mailbox.length < bus.queueLength ∧ bus' = { bus with mailbox := bus.mailbox ++ [n] } := by
  unfold post at h
  split at h
  · exact ⟨‹_›, (Option.some.inj h).symm⟩
  · cases h

theorem fetch_cases (h : fetch bus = some (n, bus')) :
    ∃ rest, bus.mailbox = n :: rest ∧ bus' = { bus with mailbox := rest } := by
  unfold fetch at h
  split at h
  · cases h
  · rename_i m rest hbox
    obtain ⟨rfl, rfl⟩ := Prod.mk.inj (Option.some.inj h)
    exact ⟨rest, hbox, rfl⟩

end Pool

end NanoVNA.EventBus
