import NanoVNA.Numerals
import NanoVNA.TaskScheduler

namespace NanoVNA.TaskOccupancy

open NanoVNA.GuardedRun NanoVNA.TaskScheduler

/-- Beside what the slots hold: a start that is in progress has a slot to itself, and the worker it
has created is alive. -/
structure Inv (s : Scheduler) : Prop where
  held : ∀ k t, (s.slots k).thread = some t → ∃ w, s.workers t = some w ∧ w.slot = k
  slot : ∀ t w, s.workers t = some w → (s.slots w.slot).thread = some t ∨
    ∃ caller, s.starts caller = some ⟨w.slot, .created t⟩
  created : ∀ caller k t, s.starts caller = some ⟨k, .created t⟩ →
    ∃ w, s.workers t = some w ∧ w.slot = k
  claimed : ∀ caller c, s.starts caller = some c →
    (s.slots c.slot).thread = none ∧ (s.slots c.slot).entry.isSome
  apart : ∀ i j c d, s.starts i = some c → s.starts j = some d → c.slot = d.slot → i = j
  fresh : ∀ t w, s.workers t = some w → t < s.nextThread

variable {s t : Scheduler} {a : Action} {caller thread : Nat} {k : Fin 4}

theorem inv_initial : Inv initial where
  held := fun _ _ h => nomatch h
  slot := fun _ _ h => nomatch h
  created := fun _ _ _ h => nomatch h
  claimed := fun _ _ h => nomatch h
  apart := fun _ _ _ _ h => nomatch h
  fresh := fun _ _ h => nomatch h

theorem findSlot_some (h : findSlot s.slots = some k) : (s.slots k).thread = none := by
  have hnone := List.find?_some h
  exact Option.isNone_iff_eq_none.mp hnone

theorem findSlot_none (h : findSlot s.slots = none) (k : Fin 4) :
    ∃ t, (s.slots k).thread = some t := by
  have hheld := List.find?_eq_none.mp h k (List.mem_finRange k)
  rwa [Option.isNone_iff_eq_none, ← ne_eq, Option.ne_none_iff_exists'] at hheld

theorem distinct_of_inv (h : Inv s) {t t' : Nat} {w w' : Worker} (hw : s.workers t = some w)
    (hw' : s.workers t' = some w') (hslot : w.slot = w'.slot) : t = t' := by
  obtain hrecorded | ⟨i, hi⟩ := h.slot t w hw
  · obtain hrecorded' | ⟨j, hj⟩ := h.slot t' w' hw'
    · rw [hslot] at hrecorded
      exact Option.some.inj (hrecorded.symm.trans hrecorded')
    · rw [hslot] at hrecorded
      exact nomatch hrecorded.symm.trans (h.claimed j _ hj).1
  · obtain hrecorded' | ⟨j, hj⟩ := h.slot t' w' hw'
    · rw [← hslot] at hrecorded'
      exact nomatch hrecorded'.symm.trans (h.claimed i _ hi).1
    · obtain rfl := h.apart i j _ _ hi hj hslot
      obtain ⟨-, hphase⟩ := Start.mk.inj (Option.some.inj (hi.symm.trans hj))
      exact Phase.created.inj hphase

theorem occupied_of_inv (h : Inv s) : Occupied s where
  distinct := fun _ _ _ _ => distinct_of_inv h
  slot := h.slot
  only := by
    intro t w k hw hthread
    obtain ⟨w', hw', hslot⟩ := h.held k t hthread
    rw [Option.some.inj (hw.symm.trans hw')]
    exact hslot.symm
  held := h.held
  refused := by
    intro hnone k
    obtain ⟨t, hthread⟩ := findSlot_none hnone k
    exact ⟨t, h.held k t hthread⟩

theorem setStart_self {start : Option Start} :
    (setStart caller start s).starts caller = start := Function.update_self ..

theorem setStart_other {start : Option Start} {i : Nat} (hi : i ≠ caller) :
    (setStart caller start s).starts i = s.starts i := Function.update_of_ne hi ..

theorem starts_setStart {start : Option Start} {i : Nat} {c : Start}
    (h : (setStart caller start s).starts i = some c) :
    i = caller ∧ start = some c ∨ i ≠ caller ∧ s.starts i = some c := by
  by_cases hi : i = caller
  · subst hi
    exact Or.inl ⟨rfl, setStart_self.symm.trans h⟩
  · exact Or.inr ⟨hi, (setStart_other hi).symm.trans h⟩

theorem recording_setStart {start : Option Start} {t : Nat}
    (hnot : ∀ j t, s.starts caller ≠ some ⟨j, .created t⟩)
    (h : ∃ i, s.starts i = some ⟨k, .created t⟩) :
    ∃ i, (setStart caller start s).starts i = some ⟨k, .created t⟩ := by
  obtain ⟨i, hi⟩ := h
  have hother : i ≠ caller := by
    rintro rfl
    exact hnot k t hi
  exact ⟨i, (setStart_other hother).trans hi⟩

theorem setWorker_self {worker : Option Worker} :
    (setWorker thread worker s).workers thread = worker := Function.update_self ..

theorem setWorker_other {worker : Option Worker} {t : Nat} (ht : t ≠ thread) :
    (setWorker thread worker s).workers t = s.workers t := Function.update_of_ne ht ..

theorem workers_setWorker {worker : Option Worker} {t : Nat} {w : Worker}
    (h : (setWorker thread worker s).workers t = some w) :
    t = thread ∧ worker = some w ∨ t ≠ thread ∧ s.workers t = some w := by
  by_cases ht : t = thread
  · subst ht
    exact Or.inl ⟨rfl, setWorker_self.symm.trans h⟩
  · exact Or.inr ⟨ht, (setWorker_other ht).symm.trans h⟩

theorem setSlot_self {slot : Slot} : (setSlot k slot s).slots k = slot := Function.update_self ..

theorem setSlot_other {slot : Slot} {j : Fin 4} (hj : j ≠ k) :
    (setSlot k slot s).slots j = s.slots j := Function.update_of_ne hj ..

theorem setSlot_inv {slot : Slot} (h : Inv s) (hthread : slot.thread = (s.slots k).thread)
    (hunclaimed : ∀ i c, s.starts i = some c → c.slot ≠ k) : Inv (setSlot k slot s) := by
  have hsame : ∀ j, ((setSlot k slot s).slots j).thread = (s.slots j).thread := by
    intro j
    by_cases hj : j = k
    · subst hj
      rw [setSlot_self, hthread]
    · rw [setSlot_other hj]
  refine ⟨fun j t hj => h.held j t ((hsame j).symm.trans hj), fun t w hw => ?_, h.created,
    fun i c hc => ?_, h.apart, h.fresh⟩
  · rw [hsame]
    exact h.slot t w hw
  · rw [setSlot_other (hunclaimed i c hc)]
    exact h.claimed i c hc

theorem unclaimed_of_entry (h : Inv s) (hentry : (s.slots k).entry = none) {i : Nat} {c : Start}
    (hc : s.starts i = some c) : c.slot ≠ k := by
  rintro rfl
  have hsome := (h.claimed i c hc).2
  rw [hentry] at hsome
  cases hsome

/-- A start takes a slot that no start in progress has. -/
theorem claim_inv (h : Inv s) (hidle : s.starts caller = none)
    (hthread : (s.slots k).thread = none) (hentry : (s.slots k).entry.isSome)
    (hunclaimed : ∀ i c, s.starts i = some c → c.slot ≠ k) :
    Inv (setStart caller (some ⟨k, .reserved⟩) s) := by
  refine ⟨h.held, fun t w hw => ?_, fun i j t hi => ?_, fun i c hc => ?_,
    fun i j c d hc hd hslot => ?_, h.fresh⟩
  · refine (h.slot t w hw).imp_right (recording_setStart fun j t hcreated => ?_)
    exact nomatch hidle.symm.trans hcreated
  · obtain ⟨-, hnew⟩ | ⟨-, hold⟩ := starts_setStart hi
    · cases hnew
    · exact h.created i j t hold
  · obtain ⟨-, hnew⟩ | ⟨-, hold⟩ := starts_setStart hc
    · cases hnew
      exact ⟨hthread, hentry⟩
    · exact h.claimed i c hold
  · obtain ⟨hi, hnew⟩ | ⟨-, hold⟩ := starts_setStart hc <;>
      obtain ⟨hj, hnew'⟩ | ⟨-, hold'⟩ := starts_setStart hd
    · exact hi.trans hj.symm
    · cases hnew
      exact absurd hslot.symm (hunclaimed j d hold')
    · cases hnew'
      exact absurd hslot (hunclaimed i c hold)
    · exact h.apart i j c d hold hold' hslot

theorem claims_setStart (h : Inv s) {start : Option Start}
    (hsame : ∀ c, start = some c → ∃ c', s.starts caller = some c' ∧ c'.slot = c.slot) :
    (∀ i c, (setStart caller start s).starts i = some c →
      ∃ c', s.starts i = some c' ∧ c'.slot = c.slot) ∧
    ∀ i j c d, (setStart caller start s).starts i = some c →
      (setStart caller start s).starts j = some d → c.slot = d.slot → i = j := by
  have hclaims : ∀ i c, (setStart caller start s).starts i = some c →
      ∃ c', s.starts i = some c' ∧ c'.slot = c.slot := by
    intro i c hc
    obtain ⟨rfl, hnew⟩ | ⟨-, hold⟩ := starts_setStart hc
    · exact hsame c hnew
    · exact ⟨c, hold, rfl⟩
  refine ⟨hclaims, fun i j c d hc hd hslot => ?_⟩
  obtain ⟨c', hc', hcslot⟩ := hclaims i c hc
  obtain ⟨d', hd', hdslot⟩ := hclaims j d hd
  exact h.apart i j c' d' hc' hd' (hcslot.trans (hslot.trans hdslot.symm))

theorem setStart_inv (h : Inv s) {start : Option Start} {phase : Phase}
    (hstart : s.starts caller = some ⟨k, phase⟩) (hphase : ∀ t, phase ≠ .created t)
    (hnext : start = some ⟨k, .failed⟩ ∨ start = none) : Inv (setStart caller start s) := by
  have hsame : ∀ c, start = some c → ∃ c', s.starts caller = some c' ∧ c'.slot = c.slot := by
    rintro c rfl
    obtain hnext | hnext := hnext
    · cases hnext
      exact ⟨_, hstart, rfl⟩
    · cases hnext
  obtain ⟨hclaims, hapart⟩ := claims_setStart h hsame
  refine ⟨h.held, fun t w hw => ?_, fun i j t hi => ?_, fun i c hc => ?_, hapart, h.fresh⟩
  · refine (h.slot t w hw).imp_right (recording_setStart fun j t hcreated => ?_)
    obtain ⟨-, heq⟩ := Start.mk.inj (Option.some.inj (hstart.symm.trans hcreated))
    exact hphase t heq
  · obtain ⟨-, hnew⟩ | ⟨-, hold⟩ := starts_setStart hi
    · obtain hnext | hnext := hnext <;> cases hnext.symm.trans hnew
    · exact h.created i j t hold
  · obtain ⟨c', hc', hslot⟩ := hclaims i c hc
    rw [← hslot]
    exact h.claimed i c' hc'

theorem reserve_inv (h : Inv s) (hidle : s.starts caller = none) {entry : Option Nat}
    {workingArea : Bool} {userData : Nat}
    (hguard : Guarded s (.reserve caller entry workingArea userData)) :
    Inv (reserve caller entry workingArea userData s) := by
  unfold reserve
  split
  next => exact h
  next hvalid =>
    rw [Bool.or_eq_true, not_or, Option.isNone_iff_eq_none, ← ne_eq, ← Option.isSome_iff_ne_none,
      Bool.not_eq_true', Bool.not_eq_false] at hvalid
    split
    next => exact h
    next k hfind =>
      have hfree : (s.slots k).entry = none := hguard hvalid.1 hvalid.2 k hfind
      have hunclaimed := fun i c => @unclaimed_of_entry s k h hfree i c
      have hstored : Inv (setSlot k { s.slots k with entry := entry, userData := userData } s) :=
        setSlot_inv h rfl hunclaimed
      refine claim_inv hstored hidle ?_ ?_ hunclaimed
      · rw [setSlot_self]
        exact findSlot_some hfind
      · rw [setSlot_self]
        exact hvalid.1

theorem create_inv (h : Inv s) {success : Bool} (hstart : s.starts caller = some ⟨k, .reserved⟩) :
    Inv (create caller success k s) := by
  cases success with
  | false => exact setStart_inv h hstart (fun _ heq => nomatch heq) (Or.inl rfl)
  | true =>
    have hother : ∀ {t w}, s.workers t = some w →
        (setWorker s.nextThread (some ⟨k, .born⟩) s).workers t = some w :=
      fun hw => (setWorker_other (Nat.ne_of_lt (h.fresh _ _ hw))).trans hw
    have hsame : ∀ c, some (⟨k, .created s.nextThread⟩ : Start) = some c →
        ∃ c', s.starts caller = some c' ∧ c'.slot = c.slot := by
      rintro c ⟨⟩
      exact ⟨_, hstart, rfl⟩
    obtain ⟨hclaims, hapart⟩ := claims_setStart h hsame
    refine ⟨fun j t hj => ?_, fun t w hw => ?_, fun i j t hi => ?_, fun i c hc => ?_, hapart,
      fun t w hw => ?_⟩
    · obtain ⟨w, hw, hslot⟩ := h.held j t hj
      exact ⟨w, hother hw, hslot⟩
    · obtain ⟨rfl, hnew⟩ | ⟨-, hold⟩ := workers_setWorker hw
      · cases hnew
        exact Or.inr ⟨caller, setStart_self⟩
      · refine (h.slot t w hold).imp_right (recording_setStart fun j t hcreated => ?_)
        cases hstart.symm.trans hcreated
    · obtain ⟨-, hnew⟩ | ⟨-, hold⟩ := starts_setStart hi
      · cases hnew
        exact ⟨_, setWorker_self, rfl⟩
      · obtain ⟨w, hw, hslot⟩ := h.created i j t hold
        exact ⟨w, hother hw, hslot⟩
    · obtain ⟨c', hc', hslot⟩ := hclaims i c hc
      rw [← hslot]
      exact h.claimed i c' hc'
    · obtain ⟨rfl, -⟩ | ⟨-, hold⟩ := workers_setWorker hw
      · exact Nat.lt_succ_self _
      · exact Nat.lt_succ_of_lt (h.fresh t w hold)

theorem record_inv (h : Inv s) (hstart : s.starts caller = some ⟨k, .created thread⟩) :
    Inv (record caller k thread s) := by
  obtain ⟨hnone, -⟩ := h.claimed caller _ hstart
  have hapart : ∀ i c, i ≠ caller → s.starts i = some c → c.slot ≠ k :=
    fun i c hi hc hslot => hi (h.apart i caller c _ hc hstart hslot)
  obtain ⟨-, hdistinct⟩ := @claims_setStart s caller h none fun _ hc => nomatch hc
  refine ⟨fun j t hj => ?_, fun t w hw => ?_, fun i j t hi => ?_, fun i c hc => ?_, hdistinct,
    h.fresh⟩
  · by_cases hjk : j = k
    · subst hjk
      cases (congrArg Slot.thread setSlot_self).symm.trans hj
      exact h.created caller j _ hstart
    · exact h.held j t ((congrArg Slot.thread (setSlot_other hjk)).symm.trans hj)
  · obtain hrecorded | ⟨i, hi⟩ := h.slot t w hw
    · left
      have hne : w.slot ≠ k := by
        rintro rfl
        exact nomatch hnone.symm.trans hrecorded
      exact (congrArg Slot.thread (setSlot_other hne)).trans hrecorded
    · by_cases hic : i = caller
      · subst hic
        obtain ⟨hslot, hphase⟩ := Start.mk.inj (Option.some.inj (hstart.symm.trans hi))
        left
        rw [← hslot, ← Phase.created.inj hphase]
        exact congrArg Slot.thread setSlot_self
      · exact Or.inr ⟨i, (setStart_other hic).trans hi⟩
  · obtain ⟨-, hnew⟩ | ⟨-, hold⟩ := starts_setStart hi
    · cases hnew
    · exact h.created i j t hold
  · obtain ⟨-, hnew⟩ | ⟨hi, hold⟩ := starts_setStart hc
    · cases hnew
    · have hsame : (record caller k thread s).slots c.slot = s.slots c.slot :=
        setSlot_other (hapart i c hi hold)
      rw [hsame]
      exact h.claimed i c hold

theorem abandon_inv (h : Inv s) (hstart : s.starts caller = some ⟨k, .failed⟩) :
    Inv (abandon caller k s) := by
  have hdropped : Inv (setStart caller none s) :=
    setStart_inv h hstart (fun _ heq => nomatch heq) (Or.inr rfl)
  refine setSlot_inv hdropped rfl fun i c hc hslot => ?_
  obtain ⟨-, hnew⟩ | ⟨hi, hold⟩ := starts_setStart hc
  · cases hnew
  · exact hi (h.apart i caller c _ hold hstart hslot)

theorem progress_inv (h : Inv s) {w : Worker} (hw : s.workers thread = some w)
    (progress : Progress) : Inv (setWorker thread (some ⟨w.slot, progress⟩) s) := by
  have hold : ∀ {t w'}, (setWorker thread (some ⟨w.slot, progress⟩) s).workers t = some w' →
      ∃ v, s.workers t = some v ∧ v.slot = w'.slot := by
    intro t w' hw'
    obtain ⟨rfl, hnew⟩ | ⟨-, hsame⟩ := workers_setWorker hw'
    · cases hnew
      exact ⟨w, hw, rfl⟩
    · exact ⟨w', hsame, rfl⟩
  have hnew : ∀ {t v}, s.workers t = some v →
      ∃ w', (setWorker thread (some ⟨w.slot, progress⟩) s).workers t = some w' ∧
        w'.slot = v.slot := by
    intro t v hv
    by_cases ht : t = thread
    · subst ht
      cases hw.symm.trans hv
      exact ⟨_, setWorker_self, rfl⟩
    · exact ⟨v, (setWorker_other ht).trans hv, rfl⟩
  refine ⟨fun j t hj => ?_, fun t w' hw' => ?_, fun i j t hi => ?_, h.claimed, h.apart,
    fun t w' hw' => ?_⟩
  · obtain ⟨v, hv, rfl⟩ := h.held j t hj
    exact hnew hv
  · obtain ⟨v, hv, hslot⟩ := hold hw'
    rw [← hslot]
    exact h.slot t v hv
  · obtain ⟨v, hv, rfl⟩ := h.created i j t hi
    exact hnew hv
  · obtain ⟨v, hv, -⟩ := hold hw'
    exact h.fresh t v hv

theorem finish_inv (h : Inv s) {w : Worker} (hw : s.workers thread = some w)
    (hrecorded : (s.slots w.slot).thread = some thread) : Inv (finish thread w.slot s) := by
  have hunclaimed : ∀ i c, s.starts i = some c → c.slot ≠ w.slot := by
    intro i c hc hslot
    have hnone := (h.claimed i c hc).1
    rw [hslot, hrecorded] at hnone
    cases hnone
  have hother : ∀ {t v}, s.workers t = some v → v.slot ≠ w.slot →
      (finish thread w.slot s).workers t = some v := by
    intro t v hv hslot
    have hne : t ≠ thread := by
      rintro rfl
      cases hw.symm.trans hv
      exact hslot rfl
    exact (setWorker_other hne).trans hv
  refine ⟨fun j t hj => ?_, fun t v hv => ?_, fun i j t hi => ?_, fun i c hc => ?_, h.apart,
    fun t v hv => ?_⟩
  · by_cases hjk : j = w.slot
    · subst hjk
      exact nomatch (congrArg Slot.thread setSlot_self).symm.trans hj
    · obtain ⟨v, hv, rfl⟩ := h.held j t ((congrArg Slot.thread (setSlot_other hjk)).symm.trans hj)
      exact ⟨v, hother hv hjk, rfl⟩
  · obtain ⟨-, hnone⟩ | ⟨ht, hold⟩ := workers_setWorker hv
    · cases hnone
    · refine (h.slot t v hold).imp_left fun hthread => ?_
      have hne : v.slot ≠ w.slot := by
        intro hslot
        rw [hslot, hrecorded] at hthread
        exact ht (Option.some.inj hthread).symm
      exact (congrArg Slot.thread (setSlot_other hne)).trans hthread
  · obtain ⟨v, hv, rfl⟩ := h.created i j t hi
    exact ⟨v, hother hv (hunclaimed i _ hi), rfl⟩
  · have hsame : (finish thread w.slot s).slots c.slot = s.slots c.slot :=
      setSlot_other (hunclaimed i c hc)
    rw [hsame]
    exact h.claimed i c hc
  · obtain ⟨-, hnone⟩ | ⟨-, hold⟩ := workers_setWorker hv
    · cases hnone
    · exact h.fresh t v hold

theorem setStop_inv (h : Inv s) (stop : Option (Fin 4 × Nat)) : Inv (setStop caller stop s) :=
  ⟨h.held, h.slot, h.created, h.claimed, h.apart, h.fresh⟩

theorem join_inv (h : Inv s) (hthread : (s.slots k).thread = none)
    (hentry : (s.slots k).entry = none) : Inv (join caller k s) :=
  setStop_inv (setSlot_inv h hthread.symm fun _ _ => unclaimed_of_entry h hentry) none

theorem step_inv (h : Inv s) (hguard : Guarded s a) (hstep : step s a = some t) : Inv t := by
  cases a with
  | reserve caller entry workingArea userData =>
    obtain ⟨hidle, rfl⟩ := reserve_of_step hstep
    exact reserve_inv h hidle hguard
  | create caller success =>
    obtain ⟨k, hstart, rfl⟩ := create_of_step hstep
    exact create_inv h hstart
  | record caller =>
    obtain ⟨k, thread, hstart, rfl⟩ := record_of_step hstep
    exact record_inv h hstart
  | abandon caller =>
    obtain ⟨k, hstart, rfl⟩ := abandon_of_step hstep
    exact abandon_inv h hstart
  | enter thread =>
    obtain ⟨k, hw, rfl⟩ := enter_of_step hstep
    obtain ⟨progress, henter⟩ := enter_eq thread k s
    rw [henter]
    exact progress_inv h hw progress
  | leave thread =>
    obtain ⟨k, _, _, hw, rfl⟩ := leave_of_step hstep
    exact progress_inv h hw .returned
  | finish thread =>
    obtain ⟨k, hw, rfl⟩ := finish_of_step hstep
    exact finish_inv h hw (hguard _ hw)
  | stop caller k =>
    obtain ⟨-, rfl⟩ := stop_of_step hstep
    unfold stop
    split
    · exact setStop_inv h _
    · exact h
  | join caller =>
    obtain ⟨k, thread, hstop, -, rfl⟩ := join_of_step hstep
    obtain ⟨hthread, hentry⟩ := hguard _ hstop
    exact join_inv h hthread hentry

/-- However starts, stops and the ends of workers are interleaved, as long as their steps are
guarded. -/
theorem slots_occupied {actions : List Action} (hguard : Along step Guarded initial actions)
    (hrun : actions.foldlM step initial = some s) : Occupied s :=
  occupied_of_inv
    (foldlM_invariant_of_along (fun _ _ _ => step_inv) inv_initial hguard hrun)

/-- Two workers are started and stopped, and a third one takes the slot of the first. -/
def restarted : List Action :=
  [.reserve 0 (some 7) true 1, .create 0 true, .enter 0, .record 0, .reserve 0 (some 8) true 2,
    .create 0 true, .record 0, .stop 1 0, .leave 0, .finish 0, .join 1, .reserve 1 (some 9) true 3,
    .create 1 true, .record 1, .enter 1]

theorem slots_occupied_restarted :
    ∃ s, restarted.foldlM step initial = some s ∧
      (s.slots 0).thread = some 2 ∧ (s.slots 1).thread = some 1 ∧ Occupied s :=
  have hguard : Along step Guarded initial restarted := by decide
  ⟨_, rfl, rfl, rfl, slots_occupied hguard rfl⟩

/-- A worker that ends before it is recorded holds its slot for ever; two starts share a slot; and
a stop clears the slot of a worker that was started meanwhile. -/
theorem slots_fail :
    (∃ s, [.reserve 0 (some 7) true 1, .create 0 true, .enter 0, .leave 0, .finish 0,
        .record 0].foldlM step initial = some s ∧
      (s.slots 0).thread = some 0 ∧ s.workers 0 = none ∧ ¬ Occupied s) ∧
    (∃ s, [.reserve 0 (some 7) true 1, .reserve 1 (some 8) true 2, .create 0 true, .create 1 true,
        .record 0, .record 1].foldlM step initial = some s ∧
      s.workers 0 = some ⟨0, .born⟩ ∧ s.workers 1 = some ⟨0, .born⟩ ∧ ¬ Occupied s) ∧
    ∃ s, [.reserve 0 (some 7) true 1, .create 0 true, .record 0, .enter 0, .stop 1 0, .leave 0,
        .finish 0, .reserve 0 (some 8) true 2, .create 0 true, .record 0,
        .join 1].foldlM step initial = some s ∧
      s.workers 1 = some ⟨0, .born⟩ ∧ (s.slots 0).thread = none ∧ ¬ Occupied s := by
  refine ⟨⟨_, rfl, rfl, rfl, fun h => ?_⟩, ⟨_, rfl, rfl, rfl, fun h => ?_⟩,
    ⟨_, rfl, rfl, rfl, fun h => ?_⟩⟩
  · obtain ⟨w, hw, -⟩ := h.held 0 0 rfl
    cases hw
  · exact absurd (h.distinct 0 1 _ _ rfl rfl rfl) (by decide)
  · obtain hthread | ⟨caller, hstart⟩ := h.slot 1 _ rfl
    · cases hthread
    · cases caller <;> cases hstart

end NanoVNA.TaskOccupancy
