import NanoVNA.EventBusCalls

namespace NanoVNA.EventBusHistory

open NanoVNA.EventBus NanoVNA.EventBusCalls NanoVNA.Slots NanoVNA.GuardedRun

variable {s s' : State} {k : Nat} {op : Op} {next : Option Op}

/-- A change of the bus and of the queue that a call in progress does not notice. -/
structure Quiet (bus bus' : Bus) (queued queued' : List Message) (n : Option Nat) : Prop where
  subscriptions : bus'.subscriptions = bus.subscriptions
  message : ∀ i, n = some i → messageOf bus' i = messageOf bus i
  queued : ∃ more, queued' = queued ++ more

theorem Quiet.getElem? {bus bus' : Bus} {queued queued' : List Message} {n : Option Nat}
    (h : Quiet bus bus' queued queued' n) {seq : Nat} {message : Message}
    (hseq : queued[seq]? = some message) : queued'[seq]? = some message := by
  obtain ⟨more, rfl⟩ := h.queued
  obtain ⟨hlt, -⟩ := List.getElem?_eq_some_iff.mp hseq
  rwa [List.getElem?_append_left hlt]

theorem opOk_quiet {bus bus' : Bus} {queued queued' : List Message}
    (h : Quiet bus bus' queued queued' op.node) (hop : OpOk bus queued op) :
    OpOk bus' queued' op := by
  cases op with
  | publishing isr message | rejected isr n message | fetching => trivial
  | allocated isr n message => exact (h.message n rfl).trans hop
  | calling message i called =>
    unfold OpOk
    rw [h.subscriptions]
    exact hop
  | fetched seq n =>
    obtain ⟨message, hseq, hnode⟩ := hop
    exact ⟨message, h.getElem? hseq, (h.message n rfl).trans hnode⟩
  | dispatching seq n message i called =>
    obtain ⟨hseq, hi, hcalled⟩ := hop
    unfold OpOk
    rw [h.subscriptions]
    exact ⟨h.getElem? hseq, hi, hcalled⟩
  | releasing seq n message called =>
    obtain ⟨hseq, hcalled⟩ := hop
    unfold OpOk
    rw [h.subscriptions]
    exact ⟨h.getElem? hseq, hcalled⟩

/-- What a step of a call has to do for the invariant: the node and the message it holds are
those it takes over, and the rest of the state is told of nothing else. -/
structure Kept (s s' : State) (op : Op) (next : Option Op) : Prop where
  nodes : (s'.bus.mailbox ++ (next.bind Op.node).toList ++ nodesInUse s.bus).Perm
    (s.bus.mailbox ++ op.node.toList ++ nodesInUse s'.bus)
  seqs : (s'.deliveries.map Delivery.seq ++ (next.bind Op.seq).toList ++
      List.range s.fetches).Perm
    (s.deliveries.map Delivery.seq ++ op.seq.toList ++ List.range s'.fetches)
  order : s'.bus.mailbox.map (messageOf s'.bus) = (s'.queued.drop s'.fetches).map some
  fetches : s'.fetches ≤ s'.queued.length
  quiet : ∀ n, (∀ i, n = some i → i ∈ nodesInUse s.bus) →
    Quiet s.bus s'.bus s.queued s'.queued n
  next : ∀ op', next = some op' → OpOk s'.bus s'.queued op'
  deliveries : ∀ d ∈ s'.deliveries, d ∈ s.deliveries ∨
    s'.queued[d.seq]? = some d.message ∧ d.called = subscribersOf s'.bus.subscriptions d.message

theorem node_mem (hs : Inv s) (hop : op ∈ s.ops) {n : Nat} (hn : op.node = some n) :
    n ∈ nodesInUse s.bus :=
  hs.nodes.mem_iff.mp
    (List.mem_append_right _ (List.mem_filterMap.mpr ⟨op, hop, hn⟩))

theorem inv_of_kept (hs : Inv s) (hk : s.ops[k]? = some op) (h : Kept s s' op next) :
    Inv { s' with ops := replace s.ops k next } := by
  have hquiet : Quiet s.bus s'.bus s.queued s'.queued none := h.quiet none fun _ hn => nomatch hn
  refine ⟨?_, ?_, h.order, h.fetches, fun op' hop' => ?_, fun d hd => ?_⟩
  · exact perm_exchange hs.nodes (filterMap_replace Op.node hk next) h.nodes
  · exact perm_exchange hs.seqs (filterMap_replace Op.seq hk next) h.seqs
  · obtain hold | hnew := mem_replace hop'
    · exact opOk_quiet (h.quiet op'.node fun i hi => node_mem hs hold hi) (hs.ops op' hold)
    · exact h.next op' hnew
  · obtain hold | hnew := h.deliveries d hd
    · obtain ⟨hseq, hcalled⟩ := hs.deliveries d hold
      refine ⟨hquiet.getElem? hseq, hcalled.trans ?_⟩
      rw [hquiet.subscriptions]
    · exact hnew

theorem kept_same (hs : Inv s) (hnode : next.bind Op.node = op.node)
    (hseq : next.bind Op.seq = op.seq) (hnext : ∀ op', next = some op' → OpOk s.bus s.queued op') :
    Kept s s op next := by
  refine ⟨?_, ?_, hs.order, hs.fetches, ?_, hnext, fun d hd => Or.inl hd⟩
  · rw [hnode]
  · rw [hseq]
  · exact fun n _ => ⟨rfl, fun _ _ => rfl, [], (List.append_nil _).symm⟩

theorem kept_alloc (hs : Inv s) {isr : Bool} {message : Message} {n : Nat} {bus : Bus}
    (h : allocNode message s.bus = some (n, bus)) :
    Kept s { s with bus := bus } (.publishing isr message) (some (.allocated isr n message)) := by
  obtain ⟨hbox, hslots⟩ := alloc_frame h
  have hother : ∀ i ∈ nodesInUse s.bus, messageOf bus i = messageOf s.bus i :=
    fun i hi => messageOf_alloc_other h hi
  have hqueued : ∀ i ∈ s.bus.mailbox, i ∈ nodesInUse s.bus :=
    fun i hi => hs.nodes.mem_iff.mp (List.mem_append_left _ hi)
  refine ⟨?_, List.Perm.refl _, ?_, hs.fetches, fun m hm => ⟨hslots, ?_, [], ?_⟩, ?_, ?_⟩
  · rw [hbox]
    simp only [Op.node, Option.bind_some, Option.toList_some, Option.toList_none, List.append_nil]
    rw [List.append_assoc]
    exact (nodesInUse_alloc h).symm.append_left _
  · rw [hbox, ← hs.order]
    exact List.map_congr_left fun i hi => hother i (hqueued i hi)
  · exact fun i hi => hother i (hm i hi)
  · exact (List.append_nil _).symm
  · rintro op' ⟨⟩
    exact messageOf_alloc h
  · exact fun d hd => Or.inl hd

theorem kept_post (hs : Inv s) {isr : Bool} {message : Message} {n : Nat} {bus : Bus}
    (hmessage : messageOf s.bus n = some message) (h : post n s.bus = some bus) :
    Kept s { s with bus := bus, queued := s.queued ++ [message] }
      (.allocated isr n message) none := by
  obtain ⟨-, rfl⟩ := post_cases h
  refine ⟨?_, List.Perm.refl _, ?_, ?_, fun m hm => ⟨rfl, fun _ _ => rfl, [message], rfl⟩, ?_, ?_⟩
  · simp only [Op.node, Option.bind_none, Option.toList_some, Option.toList_none, List.append_nil]
    exact List.Perm.refl _
  · rw [List.drop_append_of_le_length hs.fetches, List.map_append, List.map_append, List.map_cons,
      List.map_cons, List.map_nil, List.map_nil]
    exact congrArg₂ (fun xs x => xs ++ [x]) hs.order hmessage
  · have hlength := hs.fetches
    rw [List.length_append]
    exact Nat.le_add_right_of_le hlength
  · exact fun op' hop' => nomatch hop'
  · exact fun d hd => Or.inl hd

theorem kept_release (hs : Inv s) (hop : op ∈ s.ops) {n : Nat} {deliveries ended : List Delivery}
    (hall : deliveries = s.deliveries ++ ended)
    (hn : op.node = some n) (hnode : next.bind Op.node = none)
    (hseq : (ended.map Delivery.seq ++ (next.bind Op.seq).toList).Perm op.seq.toList)
    (hnext : ∀ op', next = some op' → OpOk (release n s.bus) s.queued op')
    (hended : ∀ d ∈ ended,
      s.queued[d.seq]? = some d.message ∧ d.called = subscribersOf s.bus.subscriptions d.message) :
    Kept s { s with bus := release n s.bus, deliveries := deliveries } op next := by
  subst hall
  refine ⟨?_, ?_, ?_, hs.fetches, fun m _ => ⟨?_, ?_, [], ?_⟩, hnext, fun d hd => ?_⟩
  · rw [hn, hnode, mailbox_release, Option.toList_none, Option.toList_some, List.append_nil,
      List.append_assoc]
    exact (nodesInUse_release (node_mem hs hop hn)).symm.append_left _
  · simp only [List.map_append]
    rw [List.append_assoc (s.deliveries.map Delivery.seq)]
    exact (hseq.append_left _).append_right _
  · rw [mailbox_release, ← hs.order]
    exact List.map_congr_left fun i _ => messageOf_release
  · exact subscriptions_release
  · exact fun i _ => messageOf_release
  · exact (List.append_nil _).symm
  · obtain hold | hnew := List.mem_append.mp hd
    · exact Or.inl hold
    · right
      rw [subscriptions_release]
      exact hended d hnew

theorem kept_fetch (hs : Inv s) {n : Nat} {bus : Bus} (h : fetch s.bus = some (n, bus)) :
    Kept s { s with bus := bus, fetches := s.fetches + 1 } .fetching
      (some (.fetched s.fetches n)) := by
  obtain ⟨rest, hbox, rfl⟩ := fetch_cases h
  have horder := hs.order
  rw [hbox, List.map_cons] at horder
  have hlt : s.fetches < s.queued.length := by
    by_contra hge
    rw [List.drop_eq_nil_of_le (Nat.le_of_not_lt hge)] at horder
    cases horder
  rw [List.drop_eq_getElem_cons hlt, List.map_cons] at horder
  obtain ⟨hhead, htail⟩ := List.cons.inj horder
  refine ⟨?_, ?_, htail, hlt, fun m _ => ⟨rfl, fun _ _ => rfl, [], ?_⟩, ?_, ?_⟩
  · rw [hbox]
    simp only [Op.node, Option.bind_some, Option.toList_some, Option.toList_none, List.append_nil]
    have hswap : (rest ++ [n]).Perm ([n] ++ rest) := List.perm_append_comm
    exact hswap.append_right _
  · simp only [Op.seq, Option.bind_some, Option.toList_some, Option.toList_none, List.append_nil]
    rw [List.range_succ, List.append_assoc]
    exact List.perm_append_comm.append_left _
  · exact (List.append_nil _).symm
  · rintro op' ⟨⟩
    exact ⟨s.queued[s.fetches], List.getElem?_eq_getElem hlt, hhead⟩
  · exact fun d hd => Or.inl hd

theorem visit_ok {slots : List Subscription} {message : Message} {i : Nat} {called : List Nat}
    (h : called = visitSlots slots message i) :
    visitSlot slots message i called = visitSlots slots message (i + 1) := by
  rw [h, visitSlots]

theorem advance_kept (hs : Inv s) (hop : op ∈ s.ops) (h : advance s op = (s', next)) :
    Kept s s' op next := by
  have hok := hs.ops op hop
  cases op with
  | publishing isr message =>
    simp only [advance] at h
    split at h <;> cases h
    · exact kept_same hs rfl rfl fun op' hop' => nomatch hop'
    · exact kept_alloc hs ‹_›
  | allocated isr n message =>
    simp only [advance] at h
    split at h <;> cases h
    · exact kept_same hs rfl rfl fun op' hop' => by cases hop'; trivial
    · exact kept_post hs hok ‹_›
  | rejected isr n message =>
    cases h
    have hall : s.deliveries = s.deliveries ++ [] := (List.append_nil _).symm
    have hended : ∀ d ∈ ([] : List Delivery), s.queued[d.seq]? = some d.message ∧
        d.called = subscribersOf s.bus.subscriptions d.message :=
      fun d hd => absurd hd List.not_mem_nil
    cases isr with
    | true =>
      exact kept_release hs hop hall rfl rfl (List.Perm.refl _) (fun op' hop' => nomatch hop')
        hended
    | false =>
      refine kept_release hs hop hall rfl rfl (List.Perm.refl _) (fun op' hop' => ?_) hended
      cases hop'
      rfl
  | calling message i called =>
    simp only [advance] at h
    split at h <;> cases h
    · exact kept_same hs rfl rfl fun op' hop' => by cases hop'; exact visit_ok hok
    · exact kept_same hs rfl rfl fun op' hop' => nomatch hop'
  | fetching =>
    simp only [advance] at h
    split at h <;> cases h
    · exact kept_same hs rfl rfl fun op' hop' => nomatch hop'
    · exact kept_fetch hs ‹_›
  | fetched seq n =>
    obtain ⟨message, hseq, hmessage⟩ := hok
    simp only [advance, hmessage] at h
    cases h
    refine kept_same hs rfl rfl fun op' hop' => ?_
    cases hop'
    exact ⟨hseq, Nat.zero_le _, rfl⟩
  | dispatching seq n message i called =>
    obtain ⟨hseq, hi, hcalled⟩ := hok
    simp only [advance] at h
    split at h <;> cases h
    · refine kept_same hs rfl rfl fun op' hop' => ?_
      cases hop'
      exact ⟨hseq, ‹_›, visit_ok hcalled⟩
    · refine kept_same hs rfl rfl fun op' hop' => ?_
      cases hop'
      obtain rfl : i = s.bus.subscriptions.length := Nat.le_antisymm hi (Nat.le_of_not_lt ‹_›)
      exact ⟨hseq, hcalled.trans (dispatch_eq_subscribersOf _ message)⟩
  | releasing seq n message called =>
    cases h
    refine kept_release hs hop rfl rfl rfl (List.Perm.refl _) (fun op' hop' => nomatch hop') ?_
    intro d hd
    rw [List.mem_singleton.mp hd]
    exact hok

theorem inv_start (hs : Inv s) (hnode : op.node = none) (hseq : op.seq = none)
    (hop : OpOk s.bus s.queued op) : Inv { s with ops := s.ops ++ [op] } := by
  have hnodes : (s.ops ++ [op]).filterMap Op.node = s.ops.filterMap Op.node := by
    rw [List.filterMap_append, List.filterMap_cons, hnode]
    exact List.append_nil _
  have hseqs : (s.ops ++ [op]).filterMap Op.seq = s.ops.filterMap Op.seq := by
    rw [List.filterMap_append, List.filterMap_cons, hseq]
    exact List.append_nil _
  refine ⟨hnodes ▸ hs.nodes, hseqs ▸ hs.seqs, hs.order, hs.fetches, fun op' hop' => ?_,
    hs.deliveries⟩
  obtain hold | hnew := List.mem_append.mp hop'
  · exact hs.ops op' hold
  · rw [List.mem_singleton.mp hnew]
    exact hop

theorem startPublish_inv (hs : Inv s) (isr : Bool) (message : Message) :
    Inv { s with ops := s.ops ++ [startPublish isr message s.bus] } := by
  unfold startPublish
  split
  · exact inv_start hs rfl rfl trivial
  · exact inv_start hs rfl rfl rfl

theorem step_inv {a : Action} (s s' : State) (hs : Inv s) (h : step s a = some s') : Inv s' := by
  cases a with
  | publish message =>
    cases h
    exact startPublish_inv hs false message
  | publishFromIsr message =>
    cases h
    exact startPublish_inv hs true message
  | dispatch =>
    cases h
    split
    · exact inv_start hs rfl rfl trivial
    · exact hs
  | run k =>
    simp only [step] at h
    split at h
    · cases h
    · rename_i op hk
      cases h
      exact inv_of_kept hs hk (advance_kept hs (List.mem_of_getElem? hk) rfl)

structure Consistent (s : State) : Prop where
  nodes : s.bus.nodes.countP Node.inUse =
    s.bus.mailbox.length + s.ops.countP fun op => op.node.isSome
  queuedOnce : s.bus.mailbox.Nodup
  waiting : s.bus.mailbox.map (messageOf s.bus) = (s.queued.drop s.fetches).map some
  dispatchedOnce :
    (s.deliveries.map Delivery.seq ++ s.ops.filterMap Op.seq).Perm (List.range s.fetches)
  delivered : ∀ d ∈ s.deliveries,
    s.queued[d.seq]? = some d.message ∧ d.called = subscribersOf s.bus.subscriptions d.message

theorem consistent_of_inv (hs : Inv s) : Consistent s := by
  refine ⟨?_, ?_, hs.order, hs.seqs, hs.deliveries⟩
  · have hlength := hs.nodes.length_eq
    rw [List.length_append, nodesInUse, marked_length] at hlength
    rw [← hlength, List.length_filterMap_eq_countP]
  · exact (List.nodup_append.mp (hs.nodes.nodup_iff.mpr (marked_nodup _ _))).1

/-- Whatever the storage and the subscriptions, and however publishes from threads, publishes
from interrupts and dispatches interleave: the nodes in use are those in the queue and those of
the calls in progress, no node is queued twice, the messages leave the queue in the order they
entered it, and each one dispatched has called the subscribers of its topic, in order. -/
theorem run_consistent (capacity queueLength nodeCount : Nat) (requests : List Request)
    (actions : List Action)
    (h : actions.foldlM step (initial (configured capacity queueLength nodeCount requests)) =
      some s) : Consistent s :=
  consistent_of_inv
    (foldlM_invariant (fun s _ t => step_inv s t)
      (initial_inv capacity queueLength nodeCount requests) h)

/-- A publish from a thread and one from an interrupt compete for the only place in the queue,
and a dispatch takes out the message of the first. -/
def race : List Action :=
  [.publish ⟨.sweepCompleted, 1⟩, .run 0, .publishFromIsr ⟨.sweepStarted, 2⟩, .run 1, .run 0,
    .run 0, .dispatch, .run 1, .run 0, .run 0, .run 0, .run 0, .run 0]

theorem run_consistent_race :
    ∃ s, race.foldlM step (initial (configured 1 1 2 [⟨.sweepCompleted, some 7, 0⟩])) = some s ∧
      s.queued = [⟨.sweepCompleted, 1⟩] ∧ s.deliveries = [⟨0, ⟨.sweepCompleted, 1⟩, [0]⟩] ∧
      s.ops = [] ∧ Consistent s :=
  ⟨_, rfl, by decide, by decide, by decide,
    run_consistent 1 1 2 [⟨.sweepCompleted, some 7, 0⟩] race rfl⟩

end NanoVNA.EventBusHistory
