import NanoVNA.GuardedRun
import NanoVNA.ShellDeferred

namespace NanoVNA.ShellExactlyOnce

open NanoVNA.GuardedRun NanoVNA.ShellDeferred

structure Served (s : State) : Prop where
  runs : s.runs = s.requested.map Request.invocation
  pending : s.pendingCommand = none
  servicer : s.servicer = .idle ∨ s.servicer.owes = true

/-- All requests but the last have been served, and that one is as far as its command. -/
structure Publishing (s : State) (r : Request) (command : Option Command) : Prop where
  args : s.shellArgs = r.args
  runs : s.requested.map Request.invocation = s.runs ++ [r.invocation]
  pending : s.pendingCommand = command
  servicer : s.servicer = .idle ∨ s.servicer.owes = true

def AboutToRun (s : State) (r : Request) : Prop :=
  s.shellArgs = r.args ∧
    (s.servicer = .serving r.command r.args.length true ∧ s.pendingCommand = none ∨
      s.servicer = .idle ∧ s.pendingCommand = some r.command ∧ s.pendingArgc = r.args.length ∧
        s.pendingArgv = true)

def Queued (s : State) (r : Request) : Prop :=
  s.requested.map Request.invocation = s.runs ++ [r.invocation] ∧ AboutToRun s r ∨
    Served s ∧ s.servicer.owes = true

def Inv (s : State) : Prop :=
  match s.requester with
  | .idle | .woken => Served s
  | .parsed r => Publishing s r none
  | .commanded r => Publishing s r (some r.command)
  | .counted r => Publishing s r (some r.command) ∧ s.pendingArgc = r.args.length
  | .published r =>
    Publishing s r (some r.command) ∧ s.pendingArgc = r.args.length ∧ s.pendingArgv = true
  | .waiting r => Queued s r

variable {s t : State} {a : Action} {r : Request}

theorem inv_started (sweepEnabled : Bool) : Inv (started sweepEnabled) :=
  ⟨rfl, rfl, Or.inl rfl⟩

theorem not_owes (h : AboutToRun s r) : s.servicer.owes = false := by
  obtain ⟨-, ⟨hserving, -⟩ | ⟨hidle, -⟩⟩ := h
  · rw [hserving]
    rfl
  · rw [hidle]
    rfl

theorem served_of_owes (h : Queued s r) (howes : s.servicer.owes = true) : Served s := by
  obtain ⟨-, habout⟩ | ⟨hserved, -⟩ := h
  · exact nomatch (not_owes habout).symm.trans howes
  · exact hserved

theorem waiting_of_serving (h : Inv s) {command : Command} {argc : Nat} {argv : Bool}
    (hserving : s.servicer = .serving command argc argv) :
    ∃ r, s.requester = .waiting r ∧ Queued s r := by
  have hbusy : ¬ (s.servicer = .idle ∨ s.servicer.owes = true) := by
    rw [hserving]
    rintro (hidle | howes)
    · cases hidle
    · cases howes
  unfold Inv at h
  split at h
  next => exact absurd h.servicer hbusy
  next => exact absurd h.servicer hbusy
  next => exact absurd h.servicer hbusy
  next => exact absurd h.servicer hbusy
  next => exact absurd h.1.servicer hbusy
  next => exact absurd h.1.servicer hbusy
  next r hrequester => exact ⟨r, hrequester, h⟩

theorem settled_inv (h : Inv s) (howes : s.servicer.owes = true) (autoResume sweepEnabled : Bool)
    {servicer : Servicer} (hnext : servicer = .idle ∨ servicer.owes = true)
    (hwaits : s.requester.isWaiting = true → servicer.owes = true) :
    Inv { s with
      autoResume := autoResume
      sweepEnabled := sweepEnabled
      servicer := servicer } := by
  unfold Inv at h ⊢
  cases hrequester : s.requester with
  | idle =>
    rw [hrequester] at h
    exact ⟨h.runs, h.pending, hnext⟩
  | woken =>
    rw [hrequester] at h
    exact ⟨h.runs, h.pending, hnext⟩
  | parsed r =>
    rw [hrequester] at h
    exact ⟨h.args, h.runs, h.pending, hnext⟩
  | commanded r =>
    rw [hrequester] at h
    exact ⟨h.args, h.runs, h.pending, hnext⟩
  | counted r =>
    rw [hrequester] at h
    exact ⟨⟨h.1.args, h.1.runs, h.1.pending, hnext⟩, h.2⟩
  | published r =>
    rw [hrequester] at h
    exact ⟨⟨h.1.args, h.1.runs, h.1.pending, hnext⟩, h.2⟩
  | waiting r =>
    rw [hrequester] at h hwaits
    have hserved := served_of_owes h howes
    exact Or.inr ⟨⟨hserved.runs, hserved.pending, hnext⟩, hwaits rfl⟩

theorem wake_inv (h : Inv s) (hguard : s.requester.isWaiting = true → s.servicer.owes = true) :
    Inv (wake s) := by
  unfold wake
  split
  next r hrequester =>
    unfold Inv at h
    rw [hrequester] at h
    have howes := hguard (by rw [hrequester]; rfl)
    have hserved := served_of_owes h howes
    exact ⟨hserved.runs, hserved.pending, hserved.servicer⟩
  next => exact h

theorem pick_inv (h : Inv s) (hidle : s.servicer = .idle) (hguard : Guarded s .pick) :
    Inv (pick s) := by
  unfold pick
  split
  next command hpending =>
    have hwaits : s.requester.isWaiting = true := hguard (by rw [hpending]; rfl)
    unfold Inv at h ⊢
    cases hrequester : s.requester with
    | waiting r =>
      rw [hrequester] at h
      obtain ⟨hruns, hargs, ⟨hserving, -⟩ | ⟨-, hcommand, hargc, hargv⟩⟩ | ⟨hserved, -⟩ := h
      · exact nomatch hidle.symm.trans hserving
      · obtain rfl : command = r.command := Option.some.inj (hpending.symm.trans hcommand)
        refine Or.inl ⟨hruns, hargs, Or.inl ⟨?_, rfl⟩⟩
        rw [← hargc, ← hargv]
      · exact nomatch hpending.symm.trans hserved.pending
    | _ =>
      rw [hrequester] at hwaits
      cases hwaits
  next => exact h

theorem execute_inv (h : Inv s) {command : Command} {argc : Nat} {argv : Bool}
    (hserving : s.servicer = .serving command argc argv) : Inv (execute command argc argv s) := by
  obtain ⟨r, hrequester, hqueued⟩ := waiting_of_serving h hserving
  obtain ⟨hruns, hargs, ⟨hown, hpending⟩ | ⟨hidle, -⟩⟩ | ⟨-, howes⟩ := hqueued
  · obtain ⟨rfl, rfl, rfl⟩ := Servicer.serving.inj (hserving.symm.trans hown)
    have hran : (execute r.command r.args.length true s).runs = s.runs ++ [r.invocation] := by
      simp only [execute, if_true, hargs]
      rfl
    have hwaits : (execute r.command r.args.length true s).requester = .waiting r := hrequester
    unfold Inv
    rw [hwaits]
    exact Or.inr ⟨⟨hran.trans hruns.symm, hpending, Or.inr rfl⟩, rfl⟩
  · exact nomatch hserving.symm.trans hidle
  · rw [hserving] at howes
    cases howes

/-- The wakeup that is owed reaches the requester it is owed to, or nobody. -/
theorem dequeue_inv (h : Inv s) (howes : s.servicer.owes = true) :
    Inv (wake { s with servicer := .idle }) := by
  unfold wake
  split
  next r hrequester =>
    change s.requester = .waiting r at hrequester
    unfold Inv at h
    rw [hrequester] at h
    have hserved := served_of_owes h howes
    exact ⟨hserved.runs, hserved.pending, Or.inl rfl⟩
  next hnot =>
    refine settled_inv h howes s.autoResume s.sweepEnabled (Or.inl rfl) fun hwaits => ?_
    unfold Requester.isWaiting at hwaits
    split at hwaits
    · exact absurd ‹_› (hnot _)
    · cases hwaits

/-- The shell thread sets up its request by one store after the other. -/
theorem publish_inv (h : Inv s) (hguard : Guarded s a) (hstep : step s a = some t)
    (ha : a = .storeCommand ∨ a = .storeArgc ∨ a = .storeArgv ∨ a = .enqueue) : Inv t := by
  unfold Inv at h
  obtain rfl | rfl | rfl | rfl := ha
  · simp only [step] at hstep
    split at hstep <;> cases hstep
    rename_i r hrequester
    rw [hrequester] at h
    exact ⟨h.args, h.runs, rfl, h.servicer⟩
  · simp only [step] at hstep
    split at hstep <;> cases hstep
    rename_i r hrequester
    rw [hrequester] at h
    exact ⟨⟨h.args, h.runs, h.pending, h.servicer⟩, rfl⟩
  · simp only [step] at hstep
    split at hstep <;> cases hstep
    rename_i r hrequester
    rw [hrequester] at h
    exact ⟨⟨h.1.args, h.1.runs, h.1.pending, h.1.servicer⟩, h.2, rfl⟩
  · simp only [step] at hstep
    split at hstep <;> cases hstep
    rename_i r hrequester
    rw [hrequester] at h
    obtain ⟨hpublishing, hargc, hargv⟩ := h
    have hidle : s.servicer = .idle :=
      hpublishing.servicer.resolve_right fun howes => nomatch hguard.symm.trans howes
    exact Or.inl ⟨hpublishing.runs, hpublishing.args,
      Or.inr ⟨hidle, hpublishing.pending, hargc, hargv⟩⟩

theorem request_inv (h : Inv s) (hstep : step s (.request r) = some t) : Inv t := by
  unfold Inv at h
  simp only [step] at hstep
  split at hstep <;> cases hstep
  rename_i hrequester
  rw [hrequester] at h
  refine ⟨rfl, ?_, h.pending, h.servicer⟩
  rw [List.map_append, List.map_singleton, ← h.runs]

theorem step_inv (h : Inv s) (hguard : Guarded s a) (hstep : step s a = some t) : Inv t := by
  cases a with
  | request r => exact request_inv h hstep
  | storeCommand => exact publish_inv h hguard hstep (Or.inl rfl)
  | storeArgc => exact publish_inv h hguard hstep (Or.inr (Or.inl rfl))
  | storeArgv => exact publish_inv h hguard hstep (Or.inr (Or.inr (Or.inl rfl)))
  | enqueue => exact publish_inv h hguard hstep (Or.inr (Or.inr (Or.inr rfl)))
  | timeout =>
    have hwake := wake_inv h hguard
    simp only [step] at hstep
    split at hstep <;> cases hstep
    rename_i r hrequester
    simpa only [wake, hrequester] using hwake
  | wakeAll =>
    cases hstep
    exact wake_inv h hguard
  | proceed =>
    unfold Inv at h
    simp only [step] at hstep
    split at hstep <;> cases hstep
    rename_i hrequester
    rw [hrequester] at h
    exact ⟨h.runs, h.pending, h.servicer⟩
  | pick =>
    simp only [step] at hstep
    split at hstep <;> cases hstep
    exact pick_inv h ‹_› hguard
  | execute =>
    simp only [step] at hstep
    split at hstep <;> cases hstep
    exact execute_inv h ‹_›
  | settle =>
    simp only [step] at hstep
    split at hstep <;> cases hstep
    rename_i command hreturned
    exact settled_inv h (by rw [hreturned]; rfl) _ _ (Or.inr rfl) (fun _ => rfl)
  | dequeue =>
    simp only [step] at hstep
    split at hstep <;> cases hstep
    rename_i hsettled
    exact dequeue_inv h (by rw [hsettled]; rfl)

/-- The measurement thread alone brings a requester that waits to go on, and then its handler has
run. -/
theorem service_wakes (h : Queued s r) (hrequester : s.requester = .waiting r) :
    ∃ t, (service s.servicer).foldlM step s = some t ∧ t.requester = .woken ∧
      t.runs = t.requested.map Request.invocation := by
  obtain ⟨shellArgs, pendingCommand, pendingArgc, pendingArgv, autoResume, sweepEnabled, requester,
    servicer, requested, runs⟩ := s
  obtain rfl : requester = .waiting r := hrequester
  obtain ⟨hruns, hargs, ⟨hserving, -⟩ | ⟨hidle, hcommand, hargc, hargv⟩⟩ | ⟨hserved, howes⟩ := h
  · obtain rfl : servicer = _ := hserving
    obtain rfl : shellArgs = _ := hargs
    exact ⟨_, rfl, rfl, hruns.symm⟩
  · obtain rfl : servicer = _ := hidle
    obtain rfl : pendingCommand = _ := hcommand
    obtain rfl : pendingArgc = _ := hargc
    obtain rfl : pendingArgv = _ := hargv
    obtain rfl : shellArgs = _ := hargs
    exact ⟨_, rfl, rfl, hruns.symm⟩
  · cases servicer with
    | returned command => exact ⟨_, rfl, rfl, hserved.runs⟩
    | settled => exact ⟨_, rfl, rfl, hserved.runs⟩
    | _ => cases howes

theorem exactlyOnce_of_served (h : Served s) (hwait : s.requester.isWaiting = false) :
    ExactlyOnce s :=
  ⟨h.runs ▸ List.prefix_refl _, fun _ => h.runs, fun hwaits => nomatch hwait.symm.trans hwaits⟩

theorem exactlyOnce_of_publishing {command : Option Command} (h : Publishing s r command)
    (hwait : s.requester.isWaiting = false)
    (hbusy : ¬ (s.requester = .woken ∨ s.requester = .idle)) : ExactlyOnce s :=
  ⟨⟨_, h.runs.symm⟩, fun hgone => absurd hgone hbusy,
    fun hwaits => nomatch hwait.symm.trans hwaits⟩

theorem exactlyOnce_of_queued (h : Queued s r) (hrequester : s.requester = .waiting r) :
    ExactlyOnce s := by
  refine ⟨?_, fun hgone => ?_, fun _ => service_wakes h hrequester⟩
  · obtain ⟨hruns, -⟩ | ⟨hserved, -⟩ := h
    · exact ⟨_, hruns.symm⟩
    · exact hserved.runs ▸ List.prefix_refl _
  · obtain hwoken | hidle := hgone
    · cases hrequester.symm.trans hwoken
    · cases hrequester.symm.trans hidle

theorem exactlyOnce_of_inv (h : Inv s) : ExactlyOnce s := by
  unfold Inv at h
  cases hrequester : s.requester with
  | idle =>
    rw [hrequester] at h
    exact exactlyOnce_of_served h (by rw [hrequester]; rfl)
  | woken =>
    rw [hrequester] at h
    exact exactlyOnce_of_served h (by rw [hrequester]; rfl)
  | parsed r =>
    rw [hrequester] at h
    exact exactlyOnce_of_publishing h (by rw [hrequester]; rfl) (by simp [hrequester])
  | commanded r =>
    rw [hrequester] at h
    exact exactlyOnce_of_publishing h (by rw [hrequester]; rfl) (by simp [hrequester])
  | counted r =>
    rw [hrequester] at h
    exact exactlyOnce_of_publishing h.1 (by rw [hrequester]; rfl) (by simp [hrequester])
  | published r =>
    rw [hrequester] at h
    exact exactlyOnce_of_publishing h.1 (by rw [hrequester]; rfl) (by simp [hrequester])
  | waiting r =>
    rw [hrequester] at h
    exact exactlyOnce_of_queued h hrequester

/-- Over any interleaving of requests, service, time-outs and disconnections whose steps are
guarded. -/
theorem deferred_exactly_once (sweepEnabled : Bool) {actions : List Action}
    (hguard : Along step Guarded (started sweepEnabled) actions)
    (hrun : actions.foldlM step (started sweepEnabled) = some s) : ExactlyOnce s :=
  exactlyOnce_of_inv
    (foldlM_invariant_of_along (fun _ _ _ => step_inv) (inv_started sweepEnabled) hguard hrun)

def scan : Request := ⟨⟨"scan", true, true, false⟩, ["1000000", "2000000"], false⟩

def dump : Request := ⟨⟨"dump", true, true, false⟩, ["0"], true⟩

/-- Two requests, the second begun between the handler of the first and its wakeup. -/
def twoRequests : List Action :=
  [.pick, .request scan, .storeCommand, .storeArgc, .storeArgv, .enqueue, .pick, .execute, .timeout,
    .proceed, .request dump, .storeCommand, .settle, .dequeue, .storeArgc, .storeArgv, .enqueue,
    .pick, .execute, .settle, .dequeue, .wakeAll, .proceed]

theorem deferred_exactly_once_two :
    ∃ s, twoRequests.foldlM step (started true) = some s ∧
      s.runs = [scan.invocation, dump.invocation] ∧ ExactlyOnce s :=
  have hguard : Along step Guarded (started true) twoRequests := by decide
  ⟨_, rfl, rfl, deferred_exactly_once true hguard rfl⟩

/-- A handler that is called without its arguments; a requester that waits for a wakeup it has
missed; and one that goes on while its command is still pending. -/
theorem deferred_fails :
    (∃ s, [.request scan, .storeCommand, .pick, .execute].foldlM step (started true) = some s ∧
      s.runs = [⟨scan.command, 0, none⟩] ∧ ¬ ExactlyOnce s) ∧
    (∃ s, [.request scan, .storeCommand, .storeArgc, .storeArgv, .pick, .execute, .settle, .dequeue,
        .enqueue].foldlM step (started true) = some s ∧
      s.requester = .waiting scan ∧ s.pendingCommand = none ∧ ¬ ExactlyOnce s) ∧
    ∃ s, [.request scan, .storeCommand, .storeArgc, .storeArgv, .enqueue, .timeout,
        .proceed].foldlM step (started true) = some s ∧
      s.requester = .idle ∧ s.runs = [] ∧ ¬ ExactlyOnce s := by
  refine ⟨⟨_, rfl, rfl, fun h => ?_⟩, ⟨_, rfl, rfl, rfl, fun h => ?_⟩,
    ⟨_, rfl, rfl, rfl, fun h => ?_⟩⟩
  · exact absurd h.ordered (by decide)
  · obtain ⟨t, ht, -⟩ := h.awaited rfl
    cases ht
  · exact absurd (h.continued (Or.inr rfl)) (by decide)

end NanoVNA.ShellExactlyOnce
