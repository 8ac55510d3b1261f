import NanoVNA.EventBus

namespace NanoVNA.EventBusPublish

open NanoVNA.EventBus NanoVNA.Slots

/-- At the return of a publish from a thread the message is the last one in the queue, or every
subscriber of its topic has been called. -/
def NotLost (message : Message) (bus : Bus) : Prop :=
  (∃ n, (eventBusPublish message bus).1.mailbox = bus.mailbox ++ [n] ∧
    messageOf (eventBusPublish message bus).1 n = some message) ∨
  (eventBusPublish message bus).2.2 = subscribersOf bus.subscriptions message

variable {message : Message} {bus : Bus}

theorem publish_unready (h : bus.mailboxReady = false) :
    eventBusPublish message bus =
      (bus, true, dispatchToSubscribers bus.subscriptions message) := by
  simp only [eventBusPublish, eventBusPublishCommon, h, Bool.false_eq_true, if_false]

theorem publish_exhausted (hready : bus.mailboxReady = true)
    (hnone : allocNode message bus = none) :
    eventBusPublish message bus = (bus, false, []) := by
  simp only [eventBusPublish, eventBusPublishCommon, hready, if_true, hnone]

theorem publish_queued (hready : bus.mailboxReady = true) {n : Nat} {bus₁ bus₂ : Bus}
    (halloc : allocNode message bus = some (n, bus₁)) (hpost : post n bus₁ = some bus₂) :
    eventBusPublish message bus = (bus₂, true, []) := by
  simp [eventBusPublish, eventBusPublishCommon, hready, halloc, enqueue, hpost]

theorem publish_fallback (hready : bus.mailboxReady = true) {n : Nat} {bus₁ : Bus}
    (halloc : allocNode message bus = some (n, bus₁)) (hpost : post n bus₁ = none) :
    eventBusPublish message bus =
      (release n bus₁, true, dispatchToSubscribers bus.subscriptions message) := by
  simp [eventBusPublish, eventBusPublishCommon, hready, halloc, enqueue, hpost,
    (alloc_frame halloc).2]

theorem notLost_of_alloc {n : Nat} {bus₁ : Bus} (hready : bus.mailboxReady = true)
    (halloc : allocNode message bus = some (n, bus₁)) : NotLost message bus := by
  cases hpost : post n bus₁ with
  | none =>
    right
    rw [publish_fallback hready halloc hpost]
    exact dispatch_eq_subscribersOf bus.subscriptions message
  | some bus₂ =>
    left
    obtain ⟨-, rfl⟩ := post_cases hpost
    have hmessage := messageOf_alloc halloc
    rw [publish_queued hready halloc hpost]
    exact ⟨n, congrArg (fun box => box ++ [n]) (alloc_frame halloc).1, hmessage⟩

theorem notLost_exhausted_iff (hready : bus.mailboxReady = true)
    (hnone : allocNode message bus = none) :
    NotLost message bus ↔ subscribersOf bus.subscriptions message = [] := by
  unfold NotLost
  rw [publish_exhausted hready hnone]
  constructor
  · rintro (⟨n, hbox, -⟩ | hcalled)
    · simp at hbox
    · exact hcalled.symm
  · exact fun h => Or.inr h.symm

/-- A publish loses its message exactly when the bus has a queue, no node of the pool is free
and somebody listens to the topic. -/
theorem notLost_iff :
    NotLost message bus ↔
      bus.mailboxReady = false ∨ (∃ node ∈ bus.nodes, node.inUse = false) ∨
        subscribersOf bus.subscriptions message = [] := by
  cases hready : bus.mailboxReady with
  | false =>
    refine ⟨fun _ => Or.inl rfl, fun _ => Or.inr ?_⟩
    rw [publish_unready hready]
    exact dispatch_eq_subscribersOf bus.subscriptions message
  | true =>
    cases halloc : allocNode message bus with
    | none =>
      have hused := alloc_none_iff.mp halloc
      rw [notLost_exhausted_iff hready halloc]
      constructor
      · exact fun h => Or.inr (Or.inr h)
      · rintro (h | ⟨node, hnode, hfree⟩ | h)
        · cases h
        · rw [hused node hnode] at hfree
          cases hfree
        · exact h
    | some alloc =>
      obtain ⟨n, bus₁⟩ := alloc
      obtain ⟨⟨node, hnode, hfree⟩, -⟩ := alloc_cases halloc
      refine ⟨fun _ => Or.inr (Or.inl ⟨node, ?_, hfree⟩), fun _ => notLost_of_alloc hready halloc⟩
      exact List.mem_of_getElem? hnode

/-- The buses a program can build: any storage, any subscriptions, any sequence of publishes
and dispatches. -/
inductive Reachable : Bus → Prop
  | init (capacity queueLength nodeCount : Nat) :
      Reachable (eventBusInit capacity queueLength nodeCount)
  | subscribe {bus : Bus} (topic : Topic) (listener : Option Nat) (userData : Nat) :
      Reachable bus → Reachable (eventBusSubscribe topic listener userData bus).1
  | publish {bus : Bus} (fromIsr : Bool) (message : Message) :
      Reachable bus → Reachable (eventBusPublishCommon fromIsr message bus).1
  | dispatch {bus : Bus} : Reachable bus → Reachable (eventBusDispatch bus).1

/-- A queue of two messages over a pool of one node: after one publish the second message is
neither queued nor delivered, though there is a subscriber and room in the queue. -/
theorem publish_lost :
    let bus := (eventBusSubscribe .sweepCompleted (some 1) 0 (eventBusInit 1 2 1)).1
    let bus := (eventBusPublish ⟨.sweepCompleted, 1⟩ bus).1
    Reachable bus ∧ bus.mailbox.length < bus.queueLength ∧
      subscribersOf bus.subscriptions ⟨.sweepCompleted, 2⟩ = [0] ∧
      eventBusPublish ⟨.sweepCompleted, 2⟩ bus = (bus, false, []) ∧
      ¬ NotLost ⟨.sweepCompleted, 2⟩ bus := by
  refine ⟨.publish false _ (.subscribe _ _ _ (.init 1 2 1)), by decide, by decide, by decide, ?_⟩
  rw [notLost_exhausted_iff (by decide) (by decide)]
  decide

end NanoVNA.EventBusPublish
