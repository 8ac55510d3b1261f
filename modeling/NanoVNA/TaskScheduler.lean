import Mathlib.Data.Fintype.Basic
import Mathlib.Data.List.FinRange
import NanoVNA.GuardedRun

namespace NanoVNA.TaskScheduler

open NanoVNA.GuardedRun

/-- `scheduler_slot_t`, one of `SCHEDULER_MAX_TASKS`; a thread is known by the order of its
creation. -/
structure Slot where
  thread : Option Nat
  entry : Option Nat
  userData : Nat
  deriving DecidableEq, Repr

def Slot.cleared : Slot := ⟨none, none, 0⟩

inductive Phase
  | reserved
  | created (thread : Nat)
  | failed
  deriving DecidableEq, Repr

/-- A call of `scheduler_start` between its locked sections. -/
structure Start where
  slot : Fin 4
  phase : Phase
  deriving DecidableEq, Repr

inductive Progress
  | born
  | running (entry userData : Nat)
  | returned
  deriving DecidableEq, Repr

/-- A thread in `scheduler_entry_adapter` that has not cleared its slot yet. -/
structure Worker where
  slot : Fin 4
  progress : Progress
  deriving DecidableEq, Repr

/-- The slots, the calls of `scheduler_start` and `scheduler_stop` that are in progress, by their
callers, and the live workers. -/
structure Scheduler where
  slots : Fin 4 → Slot
  starts : Nat → Option Start
  stops : Nat → Option (Fin 4 × Nat)
  workers : Nat → Option Worker
  nextThread : Nat

inductive Action
  | reserve (caller : Nat) (entry : Option Nat) (workingArea : Bool) (userData : Nat)
  | create (caller : Nat) (success : Bool)
  | record (caller : Nat)
  | abandon (caller : Nat)
  | enter (thread : Nat)
  | leave (thread : Nat)
  | finish (thread : Nat)
  | stop (caller : Nat) (slot : Fin 4)
  | join (caller : Nat)
  deriving DecidableEq, Repr

def initial : Scheduler :=
  ⟨fun _ => .cleared, fun _ => none, fun _ => none, fun _ => none, 0⟩

def findSlot (slots : Fin 4 → Slot) : Option (Fin 4) :=
  (List.finRange 4).find? fun k => (slots k).thread.isNone

def setSlot (k : Fin 4) (slot : Slot) (s : Scheduler) : Scheduler :=
  { s with slots := Function.update s.slots k slot }

def setStart (caller : Nat) (start : Option Start) (s : Scheduler) : Scheduler :=
  { s with starts := Function.update s.starts caller start }

def setStop (caller : Nat) (stop : Option (Fin 4 × Nat)) (s : Scheduler) : Scheduler :=
  { s with stops := Function.update s.stops caller stop }

def setWorker (thread : Nat) (worker : Option Worker) (s : Scheduler) : Scheduler :=
  { s with workers := Function.update s.workers thread worker }

/-- The first locked section of `scheduler_start`. A start without a slot, or without a valid
argument, returns at once. -/
def reserve (caller : Nat) (entry : Option Nat) (workingArea : Bool) (userData : Nat)
    (s : Scheduler) : Scheduler :=
  if entry.isNone || !workingArea then s
  else
    match findSlot s.slots with
    | none => s
    | some k =>
      setStart caller (some ⟨k, .reserved⟩)
        (setSlot k { s.slots k with entry := entry, userData := userData } s)

/-- `chThdCreateStatic` -/
def create (caller : Nat) (success : Bool) (k : Fin 4) (s : Scheduler) : Scheduler :=
  if success then
    setStart caller (some ⟨k, .created s.nextThread⟩)
      (setWorker s.nextThread (some ⟨k, .born⟩) { s with nextThread := s.nextThread + 1 })
  else setStart caller (some ⟨k, .failed⟩) s

def record (caller : Nat) (k : Fin 4) (thread : Nat) (s : Scheduler) : Scheduler :=
  setStart caller none (setSlot k { s.slots k with thread := some thread } s)

def abandon (caller : Nat) (k : Fin 4) (s : Scheduler) : Scheduler :=
  setStart caller none (setSlot k { s.slots k with entry := none, userData := 0 } s)

/-- The worker reads its slot and calls the entry function, if it finds one. -/
def enter (thread : Nat) (k : Fin 4) (s : Scheduler) : Scheduler :=
  match (s.slots k).entry with
  | some entry => setWorker thread (some ⟨k, .running entry (s.slots k).userData⟩) s
  | none => setWorker thread (some ⟨k, .returned⟩) s

def finish (thread : Nat) (k : Fin 4) (s : Scheduler) : Scheduler :=
  setWorker thread none (setSlot k .cleared s)

/-- `scheduler_stop` up to its wait for the thread, and after it. -/
def stop (caller : Nat) (k : Fin 4) (s : Scheduler) : Scheduler :=
  match (s.slots k).thread with
  | some thread => setStop caller (some (k, thread)) s
  | none => s

def join (caller : Nat) (k : Fin 4) (s : Scheduler) : Scheduler :=
  setStop caller none (setSlot k .cleared s)

def step (s : Scheduler) : Action → Option Scheduler
  | .reserve caller entry workingArea userData =>
    match s.starts caller with
    | none => some (reserve caller entry workingArea userData s)
    | some _ => none
  | .create caller success =>
    match s.starts caller with
    | some ⟨k, .reserved⟩ => some (create caller success k s)
    | _ => none
  | .record caller =>
    match s.starts caller with
    | some ⟨k, .created thread⟩ => some (record caller k thread s)
    | _ => none
  | .abandon caller =>
    match s.starts caller with
    | some ⟨k, .failed⟩ => some (abandon caller k s)
    | _ => none
  | .enter thread =>
    match s.workers thread with
    | some ⟨k, .born⟩ => some (enter thread k s)
    | _ => none
  | .leave thread =>
    match s.workers thread with
    | some ⟨k, .running _ _⟩ => some (setWorker thread (some ⟨k, .returned⟩) s)
    | _ => none
  | .finish thread =>
    match s.workers thread with
    | some ⟨k, .returned⟩ => some (finish thread k s)
    | _ => none
  | .stop caller k =>
    match s.stops caller with
    | none => some (stop caller k s)
    | some _ => none
  | .join caller =>
    match s.stops caller with
    | some (k, thread) => if (s.workers thread).isNone then some (join caller k s) else none
    | none => none

section Steps

variable {s t : Scheduler} {caller thread : Nat}

theorem reserve_of_step {entry : Option Nat} {workingArea : Bool} {userData : Nat}
    (h : step s (.reserve caller entry workingArea userData) = some t) :
    s.starts caller = none ∧ t = reserve caller entry workingArea userData s := by
  simp only [step] at h
  split at h
  next hidle =>
    cases h
    exact ⟨hidle, rfl⟩
  next => cases h

theorem create_of_step {success : Bool} (h : step s (.create caller success) = some t) :
    ∃ k, s.starts caller = some ⟨k, .reserved⟩ ∧ t = create caller success k s := by
  simp only [step] at h
  split at h
  next k hstart =>
    cases h
    exact ⟨k, hstart, rfl⟩
  next => cases h

theorem record_of_step (h : step s (.record caller) = some t) :
    ∃ k thread, s.starts caller = some ⟨k, .created thread⟩ ∧ t = record caller k thread s := by
  simp only [step] at h
  split at h
  next k thread hstart =>
    cases h
    exact ⟨k, thread, hstart, rfl⟩
  next => cases h

theorem abandon_of_step (h : step s (.abandon caller) = some t) :
    ∃ k, s.starts caller = some ⟨k, .failed⟩ ∧ t = abandon caller k s := by
  simp only [step] at h
  split at h
  next k hstart =>
    cases h
    exact ⟨k, hstart, rfl⟩
  next => cases h

theorem enter_of_step (h : step s (.enter thread) = some t) :
    ∃ k, s.workers thread = some ⟨k, .born⟩ ∧ t = enter thread k s := by
  simp only [step] at h
  split at h
  next k hworker =>
    cases h
    exact ⟨k, hworker, rfl⟩
  next => cases h

theorem leave_of_step (h : step s (.leave thread) = some t) :
    ∃ k entry userData, s.workers thread = some ⟨k, .running entry userData⟩ ∧
      t = setWorker thread (some ⟨k, .returned⟩) s := by
  simp only [step] at h
  split at h
  next k entry userData hworker =>
    cases h
    exact ⟨k, entry, userData, hworker, rfl⟩
  next => cases h

theorem finish_of_step (h : step s (.finish thread) = some t) :
    ∃ k, s.workers thread = some ⟨k, .returned⟩ ∧ t = finish thread k s := by
  simp only [step] at h
  split at h
  next k hworker =>
    cases h
    exact ⟨k, hworker, rfl⟩
  next => cases h

theorem stop_of_step {k : Fin 4} (h : step s (.stop caller k) = some t) :
    s.stops caller = none ∧ t = stop caller k s := by
  simp only [step] at h
  split at h
  next hidle =>
    cases h
    exact ⟨hidle, rfl⟩
  next => cases h

theorem join_of_step (h : step s (.join caller) = some t) :
    ∃ k thread, s.stops caller = some (k, thread) ∧ s.workers thread = none ∧
      t = join caller k s := by
  simp only [step] at h
  split at h
  next k thread hstop =>
    split at h
    next hended =>
      cases h
      exact ⟨k, thread, hstop, Option.isNone_iff_eq_none.mp hended, rfl⟩
    next => cases h
  next => cases h

theorem enter_eq (thread : Nat) (k : Fin 4) (s : Scheduler) :
    ∃ progress, enter thread k s = setWorker thread (some ⟨k, progress⟩) s := by
  unfold enter
  split
  · exact ⟨_, rfl⟩
  · exact ⟨_, rfl⟩

end Steps

/-- Every live worker has one slot, which is its own or about to be recorded as such; every slot
that is held is held by a live worker, and a start is refused only when all of them are. -/
structure Occupied (s : Scheduler) : Prop where
  distinct : ∀ t t' w w', s.workers t = some w → s.workers t' = some w' → w.slot = w'.slot → t = t'
  slot : ∀ t w, s.workers t = some w → (s.slots w.slot).thread = some t ∨
    ∃ caller, s.starts caller = some ⟨w.slot, .created t⟩
  only : ∀ t w k, s.workers t = some w → (s.slots k).thread = some t → k = w.slot
  held : ∀ k t, (s.slots k).thread = some t → ∃ w, s.workers t = some w ∧ w.slot = k
  refused : findSlot s.slots = none → ∀ k, ∃ t w, s.workers t = some w ∧ w.slot = k

/-- A slot is reserved only when nobody has reserved it, cleared by its worker only when the worker
has been recorded in it, and cleared by a stop only when it has not been taken again. -/
def Guarded (s : Scheduler) : Action → Prop
  | .reserve _ entry workingArea _ =>
    entry.isSome → workingArea = true → ∀ k ∈ findSlot s.slots, (s.slots k).entry = none
  | .finish thread => ∀ w ∈ s.workers thread, (s.slots w.slot).thread = some thread
  | .join caller =>
    ∀ stop ∈ s.stops caller, (s.slots stop.1).thread = none ∧ (s.slots stop.1).entry = none
  | _ => True

instance (s : Scheduler) (a : Action) : Decidable (Guarded s a) := by
  cases a <;> simp only [Guarded] <;> infer_instance

end NanoVNA.TaskScheduler
