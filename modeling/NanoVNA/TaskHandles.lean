import NanoVNA.TaskScheduler

namespace NanoVNA.TaskHandles

open NanoVNA.GuardedRun NanoVNA.TaskScheduler

/-- `scheduler_task_t` holds a slot; which start returned it, and which worker that start created, is
not kept by the code. -/
structure Handle where
  slot : Fin 4
  start : Nat
  worker : Nat
  deriving DecidableEq, Repr

/-- A call of `scheduler_stop` that has read a thread from its slot. -/
structure Stopping where
  task : Nat
  handle : Handle
  terminated : Bool
  deriving DecidableEq, Repr

/-- The slots and threads with the handles that callers keep in variables. A `thread_t` lies in the
working area that the thread was created with, so `latest` says what a pointer to it means. The last
four record the starts that were given a slot: how many, which of them took a slot last, which one a
caller is in, and which have returned; and the workers they created. -/
structure Tasks where
  scheduler : Scheduler
  handles : Nat → Option Handle
  stopping : Nat → Option Stopping
  terminate : Nat → Bool
  areas : Nat → Nat
  latest : Nat → Option Nat
  started : Nat
  taken : Fin 4 → Nat
  current : Nat → Nat
  returned : Nat → Bool
  worker : Nat → Option Nat

/-- The starts are numbered from one, so that a slot nobody has taken is that of a start that has
returned. -/
def noTasks : Tasks :=
  ⟨initial, fun _ => none, fun _ => none, fun _ => false, fun _ => 0, fun _ => none, 0, fun _ => 0,
    fun _ => 0, fun start => start == 0, fun _ => none⟩

inductive Op
  | reserve (caller : Nat) (entry : Option Nat) (workingArea : Bool) (userData : Nat)
  | create (caller area : Nat)
  | refuse (caller : Nat)
  | record (caller task : Nat)
  | abandon (caller : Nat)
  | enter (thread : Nat)
  | leave (thread : Nat)
  | finish (thread : Nat)
  | copy (task source : Nat)
  | stop (caller task : Nat)
  | terminate (caller : Nat)
  | join (caller : Nat)
  deriving DecidableEq, Repr

namespace Tasks

def withScheduler (s : Tasks) (next : Scheduler) : Tasks := { s with scheduler := next }

def granted (caller : Nat) (s : Tasks) (next : Scheduler) : Tasks :=
  match next.starts caller with
  | none => s.withScheduler next
  | some start =>
    { s with
      scheduler := next
      started := s.started + 1
      taken := Function.update s.taken start.slot (s.started + 1)
      current := Function.update s.current caller (s.started + 1) }

def created (caller area : Nat) (s : Tasks) (next : Scheduler) : Tasks :=
  { s with
    scheduler := next
    areas := Function.update s.areas s.scheduler.nextThread area
    latest := Function.update s.latest area (some s.scheduler.nextThread)
    worker := Function.update s.worker (s.current caller) (some s.scheduler.nextThread) }

def returning (caller : Nat) (s : Tasks) (next : Scheduler) : Tasks :=
  { s with
    scheduler := next
    returned := Function.update s.returned (s.current caller) true }

def setHandle (task : Nat) (handle : Option Handle) (s : Tasks) : Tasks :=
  { s with handles := Function.update s.handles task handle }

def setStopping (caller : Nat) (stopping : Option Stopping) (s : Tasks) : Tasks :=
  { s with stopping := Function.update s.stopping caller stopping }

def AreaFree (s : Tasks) (area : Nat) : Prop :=
  ∀ thread ∈ s.latest area, s.scheduler.workers thread = none

instance (s : Tasks) (area : Nat) : Decidable (s.AreaFree area) :=
  inferInstanceAs (Decidable (∀ thread ∈ s.latest area, _))

/-- `chThdTerminate` marks the thread that lies where the pointer leads. -/
def terminateThread (thread : Nat) (s : Tasks) : Tasks :=
  match s.latest (s.areas thread) with
  | some target => { s with terminate := Function.update s.terminate target true }
  | none => s

end Tasks

/-- The steps of the scheduler with the handles that they return and take. A thread is created only
in a working area that no live thread lies in. -/
def taskStep (s : Tasks) : Op → Option Tasks
  | .reserve caller entry workingArea userData =>
    (step s.scheduler (.reserve caller entry workingArea userData)).map (s.granted caller)
  | .create caller area =>
    if s.AreaFree area then (step s.scheduler (.create caller true)).map (s.created caller area)
    else none
  | .refuse caller => (step s.scheduler (.create caller false)).map s.withScheduler
  | .record caller task =>
    match s.scheduler.starts caller with
    | some ⟨k, .created thread⟩ =>
      (step s.scheduler (.record caller)).map fun next =>
        (s.returning caller next).setHandle task (some ⟨k, s.current caller, thread⟩)
    | _ => none
  | .abandon caller => (step s.scheduler (.abandon caller)).map (s.returning caller)
  | .enter thread => (step s.scheduler (.enter thread)).map s.withScheduler
  | .leave thread => (step s.scheduler (.leave thread)).map s.withScheduler
  | .finish thread => (step s.scheduler (.finish thread)).map s.withScheduler
  | .copy task source => some (s.setHandle task (s.handles source))
  | .stop caller task =>
    match s.handles task, s.stopping caller with
    | none, _ => some s
    | some handle, none =>
      if (s.scheduler.slots handle.slot).thread.isNone then some (s.setHandle task none)
      else
        (step s.scheduler (.stop caller handle.slot)).map fun next =>
          (s.withScheduler next).setStopping caller (some ⟨task, handle, false⟩)
    | some _, some _ => none
  | .terminate caller =>
    match s.stopping caller, s.scheduler.stops caller with
    | some ⟨task, handle, false⟩, some (_, thread) =>
      some ((s.terminateThread thread).setStopping caller (some ⟨task, handle, true⟩))
    | _, _ => none
  | .join caller =>
    match s.stopping caller, s.scheduler.stops caller with
    | some ⟨task, _, true⟩, some (_, thread) =>
      -- `chThdWait` waits for the thread that lies there now
      if s.AreaFree (s.areas thread) then
        (step s.scheduler (.join caller)).map fun next =>
          ((s.withScheduler next).setStopping caller none).setHandle task none
      else none
    | _, _ => none

/-- What a step of a stop leaves as it was: the requests to other threads, the other workers and the
starts in progress with their slots, and the slots that hold another thread. -/
structure Keeps (handle : Handle) (s t : Tasks) : Prop where
  terminate : ∀ thread, thread ≠ handle.worker → t.terminate thread = s.terminate thread
  workers : ∀ thread w, s.scheduler.workers thread = some w → thread ≠ handle.worker →
    t.scheduler.workers thread = some w ∧ t.scheduler.slots w.slot = s.scheduler.slots w.slot
  starts : ∀ caller start, s.scheduler.starts caller = some start →
    t.scheduler.starts caller = some start ∧
      t.scheduler.slots start.slot = s.scheduler.slots start.slot
  slots : ∀ k thread, (s.scheduler.slots k).thread = some thread → thread ≠ handle.worker →
    t.scheduler.slots k = s.scheduler.slots k

/-- The handle that a step of `scheduler_stop` is about. -/
def stopped (s : Tasks) : Op → Option Handle
  | .stop _ task => s.handles task
  | .terminate caller => (s.stopping caller).map Stopping.handle
  | .join caller => (s.stopping caller).map Stopping.handle
  | _ => none

def StopsOwn (s : Tasks) (op : Op) : Prop :=
  ∀ handle ∈ stopped s op, ∀ t, taskStep s op = some t → Keeps handle s t

/-- A slot is given to a start only when the last start that took it has returned. A stop finds no
thread in the slot of its handle, or the slot has not been given to another start since; when it
clears the slot, the slot is clear, or still has not; and when it asks its thread to end, no other
thread has been created in the working area of that one. -/
def Current (s : Tasks) : Op → Prop
  | .reserve _ entry workingArea _ =>
    entry.isSome → workingArea = true →
      ∀ k ∈ findSlot s.scheduler.slots, s.returned (s.taken k) = true
  | .stop _ task =>
    ∀ handle ∈ s.handles task, (s.scheduler.slots handle.slot).thread = none ∨
      s.taken handle.slot = handle.start
  | .terminate caller =>
    ∀ stop ∈ s.scheduler.stops caller, s.latest (s.areas stop.2) = some stop.2
  | .join caller =>
    ∀ stopping ∈ s.stopping caller,
      s.scheduler.slots stopping.handle.slot = Slot.cleared ∨
        s.taken stopping.handle.slot = stopping.handle.start
  | _ => True

instance (s : Tasks) (op : Op) : Decidable (Current s op) := by
  cases op <;> simp only [Current] <;> infer_instance

end NanoVNA.TaskHandles
