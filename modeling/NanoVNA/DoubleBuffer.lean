import Mathlib.Data.List.Basic
import Mathlib.Logic.Function.Basic

namespace NanoVNA.DoubleBuffer

/-- What the producer does with the half of the memory that it fills; it submits a job and goes on
in the other half. -/
inductive Action (α J : Type)
  | write (i : Nat) (a : α)
  | copy (dst src : Nat)
  | submit (job : J)

/-- How many elements a job has, and what is done with each of them. -/
structure Consumer (α J τ : Type) where
  size : J → Nat
  deliver : J → Nat → α → τ → τ

/-- A memory of two halves, the one to be filled, a job with the number of its elements that are
done, and what the consumer has made of all elements so far. -/
structure Pipe (α J τ : Type) where
  memory : Nat → α
  upper : Bool
  pending : Option (J × Nat)
  sink : τ

inductive Event (α J : Type)
  | act (action : Action α J)
  | deliver

variable {α J τ : Type} (half : Nat) (consumer : Consumer α J τ)

def base (upper : Bool) : Nat := if upper then half else 0

section Machine

/-- A new job waits until there is no other; the consumer may take an element at any time. -/
def step (s : Pipe α J τ) : Event α J → Option (Pipe α J τ)
  | .act (.write i a) =>
    some { s with memory := Function.update s.memory (base half s.upper + i) a }
  | .act (.copy dst src) =>
    some { s with
      memory := Function.update s.memory (base half s.upper + dst)
        (s.memory (base half s.upper + src)) }
  | .act (.submit job) =>
    if s.pending.isSome then none
    else some { s with
      upper := !s.upper
      pending := if consumer.size job = 0 then none else some (job, 0) }
  | .deliver =>
    s.pending.map fun p =>
      { s with
        pending := if p.2 + 1 < consumer.size p.1 then some (p.1, p.2 + 1) else none
        sink := consumer.deliver p.1 p.2 (s.memory (base half (!s.upper) + p.2)) s.sink }

def finish (memory : Nat → α) (upper : Bool) (job : J) (done : Nat) (sink : τ) : τ :=
  (List.range' done (consumer.size job - done)).foldl
    (fun sink k => consumer.deliver job k (memory (base half upper + k)) sink) sink

/-- What the consumer will have made of everything submitted. -/
def settled (s : Pipe α J τ) : τ :=
  s.pending.elim s.sink fun p => finish half consumer s.memory (!s.upper) p.1 p.2 s.sink

end Machine

section Plain

/-- The same without a consumer of its own: a job is done when it is submitted. -/
structure Plain (α τ : Type) where
  memory : Nat → α
  upper : Bool
  sink : τ

def plainStep (s : Plain α τ) : Action α J → Plain α τ
  | .write i a => { s with memory := Function.update s.memory (base half s.upper + i) a }
  | .copy dst src =>
    { s with
      memory := Function.update s.memory (base half s.upper + dst)
        (s.memory (base half s.upper + src)) }
  | .submit job =>
    { s with
      upper := !s.upper
      sink := finish half consumer s.memory s.upper job 0 s.sink }

def plainOf (s : Pipe α J τ) : Plain α τ := ⟨s.memory, s.upper, settled half consumer s⟩

def InHalf : Action α J → Prop
  | .write i _ => i < half
  | .copy dst _ => dst < half
  | .submit job => consumer.size job ≤ half

def actionOf : Event α J → Option (Action α J)
  | .act action => some action
  | .deliver => none

def JobInHalf (s : Pipe α J τ) : Prop := ∀ p ∈ s.pending, consumer.size p.1 ≤ half

end Plain

section Refinement

variable {half consumer}

theorem finish_update {memory : Nat → α} {upper : Bool} {i : Nat} (hi : i < half) (a : α) {job : J}
    (hjob : consumer.size job ≤ half) (done : Nat) (sink : τ) :
    finish half consumer (Function.update memory (base half upper + i) a) (!upper) job done sink =
      finish half consumer memory (!upper) job done sink := by
  refine List.foldl_ext _ _ _ fun sink k hk => ?_
  obtain ⟨hle, hlt⟩ := List.mem_range'_1.mp hk
  have hhalf : k < half := by omega
  have hother : base half (!upper) + k ≠ base half upper + i := by
    cases upper <;> simp only [base, Bool.not_true, Bool.not_false, if_true, if_false,
      Bool.false_eq_true] <;> omega
  rw [Function.update_of_ne hother]

theorem settled_write {s : Pipe α J τ} (hs : JobInHalf half consumer s) {i : Nat} (hi : i < half)
    (a : α) :
    settled half consumer
        { s with memory := Function.update s.memory (base half s.upper + i) a } =
      settled half consumer s := by
  obtain ⟨memory, upper, pending, sink⟩ := s
  cases pending with
  | none => rfl
  | some p => exact finish_update hi a (hs p rfl) p.2 sink

theorem finish_step {memory : Nat → α} {upper : Bool} {job : J} {done : Nat}
    (h : done < consumer.size job) (sink : τ) :
    finish half consumer memory upper job done sink =
      finish half consumer memory upper job (done + 1)
        (consumer.deliver job done (memory (base half upper + done)) sink) := by
  obtain ⟨k, hk⟩ := Nat.exists_eq_add_of_lt h
  have hcount : consumer.size job - done = k + 1 := by omega
  have hnext : consumer.size job - (done + 1) = k := by omega
  rw [finish, hcount, List.range'_succ, List.foldl_cons, finish, hnext]

theorem finish_done {memory : Nat → α} {upper : Bool} {job : J} {done : Nat}
    (h : consumer.size job ≤ done) (sink : τ) :
    finish half consumer memory upper job done sink = sink := by
  rw [finish, Nat.sub_eq_zero_of_le h]
  rfl

/-- An action of the producer is the plain one, and the consumer's own steps are invisible. -/
theorem step_plain {s t : Pipe α J τ} {e : Event α J} (hs : JobInHalf half consumer s)
    (hstarted : ∀ p ∈ s.pending, p.2 < consumer.size p.1)
    (he : ∀ action ∈ actionOf e, InHalf half consumer action)
    (h : step half consumer s e = some t) :
    (JobInHalf half consumer t ∧ ∀ p ∈ t.pending, p.2 < consumer.size p.1) ∧
      plainOf half consumer t =
        (actionOf e).elim (plainOf half consumer s)
          (plainStep half consumer (plainOf half consumer s)) := by
  obtain ⟨memory, upper, pending, sink⟩ := s
  cases e with
  | deliver =>
    cases pending with
    | none => exact absurd h (by simp [step])
    | some p =>
      obtain rfl := Option.some.inj h
      have hjob := hs p rfl
      have hlt := hstarted p rfl
      by_cases hmore : p.2 + 1 < consumer.size p.1
      · refine ⟨⟨?_, ?_⟩, ?_⟩
        · simpa [JobInHalf, hmore] using hjob
        · simp [hmore]
        · simp only [plainOf, settled, hmore, if_true, Option.elim_some, actionOf, Option.elim_none]
          rw [finish_step hlt sink]
      · refine ⟨⟨?_, ?_⟩, ?_⟩
        · simp [JobInHalf, hmore]
        · simp [hmore]
        · simp only [plainOf, settled, hmore, if_false, Option.elim_some, actionOf,
            Option.elim_none]
          rw [finish_step hlt sink, finish_done (by omega)]
  | act action =>
    have haction := he action rfl
    cases action with
    | write i a =>
      obtain rfl := Option.some.inj h
      refine ⟨⟨hs, hstarted⟩, ?_⟩
      simp only [plainOf, actionOf, Option.elim_some, plainStep]
      congr 1
      exact settled_write hs haction a
    | copy dst src =>
      obtain rfl := Option.some.inj h
      refine ⟨⟨hs, hstarted⟩, ?_⟩
      simp only [plainOf, actionOf, Option.elim_some, plainStep]
      congr 1
      exact settled_write hs haction _
    | submit job =>
      cases pending with
      | some p => exact absurd h (by simp [step])
      | none =>
        obtain rfl := Option.some.inj h
        by_cases hempty : consumer.size job = 0
        · refine ⟨⟨by simp [JobInHalf, hempty], by simp [hempty]⟩, ?_⟩
          simp only [plainOf, actionOf, Option.elim_some, plainStep, settled, hempty, if_true,
            Option.elim_none]
          rw [finish_done (by omega)]
        · have hpos : 0 < consumer.size job := Nat.pos_of_ne_zero hempty
          have hjob : consumer.size job ≤ half := haction
          refine ⟨⟨by simpa [JobInHalf, hempty] using hjob, by simpa [hempty] using hpos⟩, ?_⟩
          simp only [plainOf, actionOf, Option.elim_some, plainStep, settled, hempty, if_false,
            Option.elim_none, Bool.not_not]

/-- However the consumer's steps fall between the producer's, the run is the plain one. -/
theorem run_plain {events : List (Event α J)} {s t : Pipe α J τ}
    (hs : JobInHalf half consumer s) (hstarted : ∀ p ∈ s.pending, p.2 < consumer.size p.1)
    (hactions : ∀ action ∈ events.filterMap actionOf, InHalf half consumer action)
    (h : events.foldlM (step half consumer) s = some t) :
    plainOf half consumer t =
      (events.filterMap actionOf).foldl (plainStep half consumer) (plainOf half consumer s) := by
  induction events generalizing s with
  | nil =>
    obtain rfl := Option.some.inj h
    rfl
  | cons e events ih =>
    rw [List.foldlM_cons] at h
    obtain ⟨u, hu, hrest⟩ := Option.bind_eq_some_iff.mp h
    have hfirst : ∀ action ∈ actionOf e, InHalf half consumer action := fun action hmem =>
      hactions action (List.mem_filterMap.mpr ⟨e, List.mem_cons_self, hmem⟩)
    have hothers : ∀ action ∈ events.filterMap actionOf, InHalf half consumer action := by
      intro action hmem
      obtain ⟨e', he', hmem'⟩ := List.mem_filterMap.mp hmem
      exact hactions action (List.mem_filterMap.mpr ⟨e', List.mem_cons_of_mem e he', hmem'⟩)
    obtain ⟨⟨hjob, hstart⟩, hplain⟩ := step_plain hs hstarted hfirst hu
    rw [ih hjob hstart hothers hrest, hplain]
    cases e with
    | act action => rfl
    | deliver => rfl

end Refinement

section View

def view (s : Plain α τ) (i : Nat) : α := s.memory (base half s.upper + i)

def viewStep (v : Nat → α) : Action α J → Nat → α
  | .write i a => Function.update v i a
  | .copy dst src => Function.update v dst (v src)
  | .submit _ => v

def isSubmit : Action α J → Bool
  | .submit _ => true
  | _ => false

theorem view_update (s : Plain α τ) (i : Nat) (a : α) :
    view half { s with memory := Function.update s.memory (base half s.upper + i) a } =
      Function.update (view half s) i a := by
  funext j
  simp only [view, Function.update_apply, Nat.add_left_cancel_iff]

theorem foldl_view (actions : List (Action α J)) (s : Plain α τ)
    (h : ∀ action ∈ actions, isSubmit action = false) :
    view half (actions.foldl (plainStep half consumer) s) =
        actions.foldl viewStep (view half s) ∧
      (actions.foldl (plainStep half consumer) s).upper = s.upper ∧
      (actions.foldl (plainStep half consumer) s).sink = s.sink := by
  induction actions generalizing s with
  | nil => exact ⟨rfl, rfl, rfl⟩
  | cons action actions ih =>
    obtain ⟨hfirst, hothers⟩ := List.forall_mem_cons.mp h
    cases action with
    | submit job => exact absurd hfirst (by simp [isSubmit])
    | write i a =>
      obtain ⟨hview, hupper, hsink⟩ := ih (plainStep half consumer s (.write i a)) hothers
      refine ⟨?_, hupper, hsink⟩
      rw [List.foldl_cons, hview, List.foldl_cons, viewStep, ← view_update]
      rfl
    | copy dst src =>
      obtain ⟨hview, hupper, hsink⟩ := ih (plainStep half consumer s (.copy dst src)) hothers
      refine ⟨?_, hupper, hsink⟩
      rw [List.foldl_cons, hview, List.foldl_cons, viewStep, ← view_update]
      rfl

end View

end NanoVNA.DoubleBuffer
