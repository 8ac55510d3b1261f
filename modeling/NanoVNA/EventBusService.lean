import NanoVNA.GuardedRun
import NanoVNA.EventBusCalls
import NanoVNA.EventBusPublish

namespace NanoVNA.EventBusService

open NanoVNA.EventBus NanoVNA.EventBusCalls NanoVNA.EventBusPublish NanoVNA.GuardedRun
open NanoVNA.Slots

/-- `APP_EVENT_QUEUE_DEPTH`, the size of the queue and of the pool of nodes -/
def appEventQueueDepth : Nat := 6

/-- The subscriptions of the shell and of the user interface; nothing attaches the configuration
service to the bus. -/
def appRequests (shellOnEvent uiOnEvent : Nat) : List Request :=
  [⟨.usbCommandPending, some shellOnEvent, 0⟩, ⟨.sweepStarted, some uiOnEvent, 0⟩,
    ⟨.sweepCompleted, some uiOnEvent, 0⟩, ⟨.storageUpdated, some uiOnEvent, 0⟩,
    ⟨.sweepProgress, some uiOnEvent, 0⟩]

def appEventBus (shellOnEvent uiOnEvent : Nat) : Bus :=
  configured 6 appEventQueueDepth appEventQueueDepth (appRequests shellOnEvent uiOnEvent)

/-- What is published next to the two events of the tick: the progress of a sweep, and a command
for which the shell thread has waited. -/
inductive Activity
  | progress (pixels : Nat)
  | commandPending
  deriving DecidableEq, Repr

def Activity.message : Activity → Message
  | .progress pixels => ⟨.sweepProgress, pixels⟩
  | .commandPending => ⟨.usbCommandPending, 0⟩

/-- What one pass of the loop of the sweep thread meets: the activity during its service loop,
whether a sweep may start, the activity during the sweep, and whether the sweep completes. -/
structure Iteration where
  service : List Activity
  shouldSweep : Bool
  sweep : List Activity
  completed : Bool
  mask : Nat
  deriving DecidableEq, Repr

structure Published where
  bus : Bus
  dropped : List Message
  deriving DecidableEq, Repr

def publish (message : Message) (p : Published) : Published :=
  let r := eventBusPublish message p.bus
  ⟨r.1, if r.2.1 then p.dropped else p.dropped ++ [message]⟩

def publishAll (messages : List Message) (p : Published) : Published :=
  messages.foldl (fun p message => publish message p) p

/-- `measurement_engine_tick`; no step of it, and none of its service loop, dispatches. -/
def measurementEngineTick (it : Iteration) (p : Published) : Published :=
  let p := publishAll (it.service.map Activity.message) p
  if it.shouldSweep then
    let p := publish ⟨.sweepStarted, it.mask⟩ p
    let p := publishAll (it.sweep.map Activity.message) p
    if it.completed then publish ⟨.sweepCompleted, it.mask⟩ p else p
  else p

/-- The bus after an iteration, the nodes that were queued before it and still are, and the
events it lost. -/
structure Firmware where
  bus : Bus
  stale : List Nat
  dropped : List Message
  deriving DecidableEq, Repr

def started (shellOnEvent uiOnEvent : Nat) : Firmware :=
  ⟨appEventBus shellOnEvent uiOnEvent, [], []⟩

def step (s : Firmware) (it : Iteration) : Option Firmware :=
  let p := measurementEngineTick it ⟨s.bus, []⟩
  some ⟨p.bus, s.bus.mailbox.filter fun n => n ∈ p.bus.mailbox, p.dropped⟩

/-- Whatever was queued before the last iteration has been dispatched, and no event of the
iteration was dropped. -/
def Served (s : Firmware) : Prop := s.stale = [] ∧ s.dropped = []

def published (it : Iteration) : List Message :=
  it.service.map Activity.message ++
    if it.shouldSweep then
      ⟨.sweepStarted, it.mask⟩ :: it.sweep.map Activity.message ++
        if it.completed then [⟨.sweepCompleted, it.mask⟩] else []
    else []

/-- The queue is empty when the iteration begins, and has room for all it publishes. -/
def Fits (s : Firmware) (it : Iteration) : Prop :=
  s.bus.mailbox = [] ∧ (published it).length ≤ appEventQueueDepth

theorem publishAll_append (xs ys : List Message) (p : Published) :
    publishAll (xs ++ ys) p = publishAll ys (publishAll xs p) := List.foldl_append

theorem tick_eq (it : Iteration) (p : Published) :
    measurementEngineTick it p = publishAll (published it) p := by
  unfold measurementEngineTick published
  rw [publishAll_append]
  split
  · rw [publishAll_append]
    split <;> rfl
  · rfl

/-- Nothing is ever taken from the bus: the nodes in use are those in the queue. -/
structure Undispatched (bus : Bus) : Prop where
  ready : bus.mailboxReady = true
  queueLength : bus.queueLength = appEventQueueDepth
  nodes : bus.nodes.length = appEventQueueDepth
  used : (nodesInUse bus).length = bus.mailbox.length

variable {bus : Bus} {p : Published} {s : Firmware} {it : Iteration}

theorem undispatched_initial (shellOnEvent uiOnEvent : Nat) :
    Undispatched (appEventBus shellOnEvent uiOnEvent) where
  ready := rfl
  queueLength := rfl
  nodes := rfl
  used := by rw [appEventBus, nodesInUse_configured, mailbox_configured]

theorem publish_free (message : Message) (h : Undispatched bus)
    (hfree : bus.mailbox.length < appEventQueueDepth) :
    ∃ bus' n, eventBusPublish message bus = (bus', true, []) ∧ Undispatched bus' ∧
      bus'.mailbox = bus.mailbox ++ [n] := by
  cases halloc : allocNode message bus with
  | none =>
    have hall := List.countP_eq_length.mpr (alloc_none_iff.mp halloc)
    have hused := h.used
    rw [nodesInUse, marked_length, hall, h.nodes] at hused
    exact absurd hused (Nat.ne_of_gt hfree)
  | some alloc =>
    obtain ⟨n, bus₁⟩ := alloc
    have hlength := (nodesInUse_alloc halloc).length_eq
    obtain ⟨-, rfl⟩ := alloc_cases halloc
    have hroom : bus.mailbox.length < bus.queueLength := h.queueLength ▸ hfree
    refine ⟨_, n, publish_queued h.ready halloc (if_pos hroom), ⟨h.ready, h.queueLength, ?_, ?_⟩,
      rfl⟩
    · exact List.length_set.trans h.nodes
    · rw [List.length_append, ← h.used]
      exact hlength

theorem publish_full (message : Message) (h : Undispatched bus)
    (hfull : appEventQueueDepth ≤ bus.mailbox.length) :
    eventBusPublish message bus = (bus, false, []) := by
  apply publish_exhausted h.ready
  rw [alloc_none_iff, ← List.countP_eq_length]
  have hused := h.used
  have hle : bus.nodes.countP Node.inUse ≤ bus.nodes.length := List.countP_le_length
  rw [nodesInUse, marked_length] at hused
  rw [h.nodes] at hle ⊢
  omega

theorem publish_undispatched (message : Message) (h : Undispatched p.bus) :
    Undispatched (publish message p).bus ∧ p.bus.mailbox <+: (publish message p).bus.mailbox := by
  unfold publish
  obtain hfree | hfull := Nat.lt_or_ge p.bus.mailbox.length appEventQueueDepth
  · obtain ⟨bus', n, heq, hbus, hbox⟩ := publish_free message h hfree
    rw [heq]
    exact ⟨hbus, hbox ▸ List.prefix_append _ _⟩
  · rw [publish_full message h hfull]
    exact ⟨h, List.prefix_refl _⟩

theorem publishAll_undispatched (messages : List Message) (h : Undispatched p.bus) :
    Undispatched (publishAll messages p).bus ∧
      p.bus.mailbox <+: (publishAll messages p).bus.mailbox := by
  induction messages generalizing p with
  | nil => exact ⟨h, List.prefix_refl _⟩
  | cons message messages ih =>
    obtain ⟨hbus, hbox⟩ := publish_undispatched message h
    obtain ⟨hrest, hboxes⟩ := ih hbus
    exact ⟨hrest, hbox.trans hboxes⟩

theorem publishAll_dropped_iff (messages : List Message) (h : Undispatched p.bus) :
    (publishAll messages p).dropped = [] ↔
      p.dropped = [] ∧
        (messages = [] ∨ p.bus.mailbox.length + messages.length ≤ appEventQueueDepth) := by
  induction messages generalizing p with
  | nil => simp [publishAll]
  | cons message messages ih =>
    have hstep := publish_undispatched message h
    have hcons : publishAll (message :: messages) p = publishAll messages (publish message p) := rfl
    rw [hcons, ih hstep.1]
    unfold publish
    obtain hfree | hfull := Nat.lt_or_ge p.bus.mailbox.length appEventQueueDepth
    · obtain ⟨bus', n, heq, -, hbox⟩ := publish_free message h hfree
      have hlength : bus'.mailbox.length = p.bus.mailbox.length + 1 := by
        rw [hbox, List.length_append, List.length_singleton]
      simp only [heq, if_true, hlength, List.length_cons, reduceCtorEq, false_or]
      refine and_congr_right fun _ => ?_
      cases messages with
      | nil => simp only [true_or, true_iff, List.length_nil]; omega
      | cons head tail => simp only [reduceCtorEq, false_or, List.length_cons]; omega
    · simp only [publish_full message h hfull, List.length_cons, reduceCtorEq, false_or, if_false,
        Bool.false_eq_true, List.append_eq_nil_iff, List.cons_ne_self, and_false, false_and,
        false_iff]
      omega

theorem stale_eq (h : Undispatched s.bus) :
    s.bus.mailbox.filter (fun n => n ∈ (measurementEngineTick it ⟨s.bus, []⟩).bus.mailbox) =
      s.bus.mailbox := by
  rw [tick_eq, List.filter_eq_self]
  intro n hn
  obtain ⟨more, hmore⟩ := (publishAll_undispatched (published it) (p := ⟨s.bus, []⟩) h).2
  exact decide_eq_true (hmore ▸ List.mem_append_left more hn)

theorem served_iff_fits (h : Undispatched s.bus) {t : Firmware} (ht : step s it = some t) :
    Served t ↔ Fits s it := by
  cases ht
  unfold Served Fits
  rw [stale_eq h]
  refine and_congr_right fun hempty : s.bus.mailbox = [] => ?_
  rw [tick_eq, publishAll_dropped_iff (published it) h]
  simp only [hempty, List.length_nil, Nat.zero_add, true_and]
  constructor
  · rintro (hnone | hroom)
    · rw [hnone]
      exact Nat.zero_le _
    · exact hroom
  · exact Or.inr

theorem step_undispatched (h : Undispatched s.bus) {t : Firmware} (ht : step s it = some t) :
    Undispatched t.bus := by
  cases ht
  rw [tick_eq]
  exact (publishAll_undispatched (published it) (p := ⟨s.bus, []⟩) h).1

def Serving (s : Firmware) : Prop := Undispatched s.bus ∧ Served s

/-- Every iteration of a run finds its predecessors' messages dispatched and drops nothing,
exactly when every iteration begins with an empty queue and publishes no more than fits. Nothing
empties the queue, so this ends with the first iteration that publishes. -/
theorem served_iff (shellOnEvent uiOnEvent : Nat) (its : List Iteration) :
    Throughout step Served (started shellOnEvent uiOnEvent) its ↔
      Along step Fits (started shellOnEvent uiOnEvent) its := by
  have hs : Serving (started shellOnEvent uiOnEvent) :=
    ⟨undispatched_initial shellOnEvent uiOnEvent, rfl, rfl⟩
  refine throughout_post_iff_along (fun _ h => h.2) (fun s it h hfits => ?_)
    (fun s it t h ht hserved => ?_) hs
  · exact ⟨_, rfl, step_undispatched h.1 rfl, (served_iff_fits h.1 rfl).mpr hfits⟩
  · exact (served_iff_fits h.1 ht).mp hserved

/-- Four sweeps that complete: after the second iteration both messages of the first are still
queued, and both events of the fourth are dropped. -/
theorem served_fails :
    let sweep : Iteration := ⟨[], true, [], true, 3⟩
    ([sweep, sweep].foldlM step (started 1 2)).map Firmware.stale = some [0, 1] ∧
      ([sweep, sweep, sweep, sweep].foldlM step (started 1 2)).map Firmware.dropped =
        some [⟨.sweepStarted, 3⟩, ⟨.sweepCompleted, 3⟩] ∧
      ¬ Throughout step Served (started 1 2) [sweep, sweep] := by
  refine ⟨by decide, by decide, ?_⟩
  rintro ⟨t, ht, -, u, hu, hserved, -⟩
  cases ht
  cases hu
  exact absurd hserved.1 (by decide)

end NanoVNA.EventBusService
