import NanoVNA.TaskHandles
import NanoVNA.TaskOccupancy

namespace NanoVNA.TaskRecycling

open NanoVNA.GuardedRun NanoVNA.TaskScheduler NanoVNA.TaskOccupancy NanoVNA.TaskHandles

def Owns (s : Tasks) (handle : Handle) : Prop :=
  s.worker handle.start = some handle.worker ∧ s.returned handle.start = true

/-- A slot is that of the start that took it last, until another one does: a start in progress has
taken its slot last, and what a slot records, and a live worker, was created by that start. -/
structure Inv (s : Tasks) : Prop where
  claimed : ∀ c st, s.scheduler.starts c = some st →
    s.taken st.slot = s.current c ∧ s.returned (s.current c) = false ∧ s.current c ≤ s.started
  apart : ∀ c c' st st', s.scheduler.starts c = some st → s.scheduler.starts c' = some st' →
    s.current c = s.current c' → c = c'
  created : ∀ c k t, s.scheduler.starts c = some ⟨k, .created t⟩ →
    s.worker (s.current c) = some t ∧ ∀ w, s.scheduler.workers t = some w → w.slot = k
  unborn : ∀ c st, s.scheduler.starts c = some st → (∀ t, st.phase ≠ .created t) →
    s.worker (s.current c) = none
  recorded : ∀ k t, (s.scheduler.slots k).thread = some t → s.worker (s.taken k) = some t
  live : ∀ t w, s.scheduler.workers t = some w → s.worker (s.taken w.slot) = some t ∧
    ((s.scheduler.slots w.slot).thread = some t ∨ s.returned (s.taken w.slot) = false)
  handles : ∀ v h, s.handles v = some h → Owns s h
  stopping : ∀ c p, s.stopping c = some p → Owns s p.handle ∧
    s.scheduler.stops c = some (p.handle.slot, p.handle.worker)
  numbered : ∀ n, s.started < n → s.worker n = none ∧ s.returned n = false
  latest : ∀ t w, s.scheduler.workers t = some w → s.latest (s.areas t) = some t
  fresh : ∀ n t, s.worker n = some t → t < s.scheduler.nextThread

variable {s t : Tasks} {next : Scheduler} {caller thread : Nat} {k : Fin 4}

theorem inv_noTasks : Inv noTasks where
  claimed := fun _ _ h => nomatch h
  apart := fun _ _ _ _ h => nomatch h
  created := fun _ _ _ h => nomatch h
  unborn := fun _ _ h => nomatch h
  recorded := fun _ _ h => nomatch h
  live := fun _ _ h => nomatch h
  handles := fun _ _ h => nomatch h
  stopping := fun _ _ h => nomatch h
  numbered := fun _ hn => ⟨rfl, beq_eq_false_iff_ne.mpr (Nat.ne_of_gt hn)⟩
  latest := fun _ _ h => nomatch h
  fresh := fun _ _ h => nomatch h

section Handles

theorem setHandle_inv (h : Inv s) {task : Nat} {handle : Option Handle}
    (howns : ∀ h ∈ handle, Owns s h) : Inv (s.setHandle task handle) := by
  refine { h with handles := fun v g hg => ?_ }
  simp only [Tasks.setHandle, Function.update_apply] at hg
  split at hg
  · exact howns g hg
  · exact h.handles v g hg

theorem setStopping_inv (h : Inv s) {stopping : Option Stopping}
    (howns : ∀ p ∈ stopping, Owns s p.handle ∧
      s.scheduler.stops caller = some (p.handle.slot, p.handle.worker)) :
    Inv (s.setStopping caller stopping) := by
  refine { h with stopping := fun c p hp => ?_ }
  simp only [Tasks.setStopping, Function.update_apply] at hp
  split at hp
  next heq =>
    rw [heq]
    exact howns p hp
  next => exact h.stopping c p hp

theorem terminateThread_inv (h : Inv s) : Inv (s.terminateThread thread) := by
  unfold Tasks.terminateThread
  split
  · exact { h with }
  · exact h

end Handles

section Starts

theorem reserve_cases (s : Scheduler) (entry : Option Nat) (workingArea : Bool) (userData : Nat) :
    reserve caller entry workingArea userData s = s ∨
      ∃ k slot, entry.isSome ∧ workingArea = true ∧ findSlot s.slots = some k ∧
        slot.thread = none ∧ reserve caller entry workingArea userData s =
          setStart caller (some ⟨k, .reserved⟩) (setSlot k slot s) := by
  unfold reserve
  split
  next => exact Or.inl rfl
  next hvalid =>
    rw [Bool.or_eq_true, not_or, Option.isNone_iff_eq_none, ← ne_eq, ← Option.isSome_iff_ne_none,
      Bool.not_eq_true', Bool.not_eq_false] at hvalid
    split
    next => exact Or.inl rfl
    next k hfind =>
      exact Or.inr ⟨k, { s.slots k with entry := entry, userData := userData }, hvalid.1, hvalid.2,
        hfind, findSlot_some hfind, rfl⟩

theorem starts_setPhase {phase phase' : Phase}
    (hstart : s.scheduler.starts caller = some ⟨k, phase⟩)
    (hnext : next.starts = s.scheduler.starts) {c : Nat} {st : Start}
    (hc : (setStart caller (some ⟨k, phase'⟩) next).starts c = some st) :
    ∃ old, s.scheduler.starts c = some old ∧ old.slot = st.slot := by
  obtain ⟨rfl, hst⟩ | ⟨-, hold⟩ := starts_setStart hc
  · cases hst
    exact ⟨_, hstart, rfl⟩
  · rw [hnext] at hold
    exact ⟨st, hold, rfl⟩

theorem Inv.claimed_setPhase (h : Inv s) {phase phase' : Phase}
    (hstart : s.scheduler.starts caller = some ⟨k, phase⟩)
    (hnext : next.starts = s.scheduler.starts) {c : Nat} {st : Start}
    (hc : (setStart caller (some ⟨k, phase'⟩) next).starts c = some st) :
    s.taken st.slot = s.current c ∧ s.returned (s.current c) = false ∧
      s.current c ≤ s.started := by
  obtain ⟨old, hold, hslot⟩ := starts_setPhase hstart hnext hc
  rw [← hslot]
  exact h.claimed c old hold

theorem Inv.apart_setPhase (h : Inv s) {phase phase' : Phase}
    (hstart : s.scheduler.starts caller = some ⟨k, phase⟩)
    (hnext : next.starts = s.scheduler.starts) {c c' : Nat} {st st' : Start}
    (hc : (setStart caller (some ⟨k, phase'⟩) next).starts c = some st)
    (hc' : (setStart caller (some ⟨k, phase'⟩) next).starts c' = some st')
    (hsame : s.current c = s.current c') : c = c' := by
  obtain ⟨old, hold, -⟩ := starts_setPhase hstart hnext hc
  obtain ⟨old', hold', -⟩ := starts_setPhase hstart hnext hc'
  exact h.apart c c' old old' hold hold' hsame

/-- No start is in progress in a slot whose last start has returned. -/
theorem Inv.unclaimed (h : Inv s) (hreturned : s.returned (s.taken k) = true) {c : Nat} {st : Start}
    (hc : s.scheduler.starts c = some st) : st.slot ≠ k := by
  rintro rfl
  obtain ⟨htaken, hopen, -⟩ := h.claimed c st hc
  rw [htaken, hopen] at hreturned
  cases hreturned

theorem Inv.vacant (h : Inv s) (hreturned : s.returned (s.taken k) = true)
    (hthread : (s.scheduler.slots k).thread = none) {w : Worker}
    (hw : s.scheduler.workers thread = some w) : w.slot ≠ k := by
  rintro rfl
  obtain ⟨-, hheld | hopen⟩ := h.live thread w hw
  · cases hthread.symm.trans hheld
  · cases hreturned.symm.trans hopen

theorem Inv.current_ne (h : Inv s) {c : Nat} {st : Start} (hc : s.scheduler.starts c = some st) :
    s.current c ≠ s.started + 1 := Nat.ne_of_lt (Nat.lt_succ_of_le (h.claimed c st hc).2.2)

theorem granted_eq (s : Tasks) (caller : Nat) (k : Fin 4) (slot : Slot) :
    s.granted caller (setStart caller (some ⟨k, .reserved⟩) (setSlot k slot s.scheduler)) =
      { s with
        scheduler := setStart caller (some ⟨k, .reserved⟩) (setSlot k slot s.scheduler)
        started := s.started + 1
        taken := Function.update s.taken k (s.started + 1)
        current := Function.update s.current caller (s.started + 1) } := by
  simp only [Tasks.granted, setStart_self]

theorem granted_inv (h : Inv s) (hidle : s.scheduler.starts caller = none)
    (hthread : (s.scheduler.slots k).thread = none) (hreturned : s.returned (s.taken k) = true)
    {slot : Slot} (hslot : slot.thread = none) :
    Inv (s.granted caller (setStart caller (some ⟨k, .reserved⟩) (setSlot k slot s.scheduler))) := by
  have hnew := h.numbered (s.started + 1) (Nat.lt_succ_self _)
  have htaken : ∀ j, j ≠ k → Function.update s.taken k (s.started + 1) j = s.taken j :=
    fun j hj => Function.update_of_ne hj ..
  have hcurrent : ∀ c st, s.scheduler.starts c = some st →
      Function.update s.current caller (s.started + 1) c = s.current c := by
    intro c st hc
    refine Function.update_of_ne ?_ ..
    rintro rfl
    cases hidle.symm.trans hc
  have hother : ∀ j, ((setSlot k slot s.scheduler).slots j).thread = (s.scheduler.slots j).thread := by
    intro j
    by_cases hj : j = k
    · subst hj
      rw [setSlot_self, hslot, hthread]
    · rw [setSlot_other hj]
  have hself : Function.update s.current caller (s.started + 1) caller = s.started + 1 :=
    Function.update_self ..
  rw [granted_eq]
  refine ⟨fun c st hc => ?_, fun c c' st st' hc hc' hsame => ?_, fun c j t hc => ?_,
    fun c st hc hphase => ?_, fun j t hj => ?_, fun t w hw => ?_, h.handles, h.stopping,
    fun n hn => h.numbered n (Nat.lt_of_succ_lt hn), h.latest, h.fresh⟩
  · obtain ⟨rfl, hst⟩ | ⟨-, hold⟩ := starts_setStart hc
    · cases hst
      dsimp only
      rw [hself]
      exact ⟨Function.update_self .., hnew.2, Nat.le_refl _⟩
    · obtain ⟨hslots, hopen, hle⟩ := h.claimed c st hold
      dsimp only
      rw [hcurrent c st hold, htaken _ (h.unclaimed hreturned hold)]
      exact ⟨hslots, hopen, Nat.le_succ_of_le hle⟩
  · dsimp only at hsame
    obtain ⟨rfl, -⟩ | ⟨-, hold⟩ := starts_setStart hc <;>
      obtain ⟨rfl, -⟩ | ⟨-, hold'⟩ := starts_setStart hc'
    · rfl
    · rw [hself, hcurrent c' st' hold'] at hsame
      exact absurd hsame.symm (h.current_ne hold')
    · rw [hself, hcurrent c st hold] at hsame
      exact absurd hsame (h.current_ne hold)
    · rw [hcurrent c st hold, hcurrent c' st' hold'] at hsame
      exact h.apart c c' st st' hold hold' hsame
  · obtain ⟨-, hst⟩ | ⟨-, hold⟩ := starts_setStart hc
    · cases hst
    · dsimp only
      rw [hcurrent c _ hold]
      exact h.created c j t hold
  · obtain ⟨rfl, -⟩ | ⟨-, hold⟩ := starts_setStart hc
    · dsimp only
      rw [hself]
      exact hnew.1
    · dsimp only
      rw [hcurrent c st hold]
      exact h.unborn c st hold hphase
  · have hrecorded := (hother j).symm.trans hj
    dsimp only
    rw [htaken j (fun heq => by cases hthread.symm.trans (heq ▸ hrecorded))]
    exact h.recorded j t hrecorded
  · obtain ⟨hworker, hheld⟩ := h.live t w hw
    dsimp only
    rw [htaken _ (h.vacant hreturned hthread hw)]
    exact ⟨hworker, hheld.imp_left (hother _).trans⟩

theorem reserve_inv (h : Inv s) (hidle : s.scheduler.starts caller = none) {entry : Option Nat}
    {workingArea : Bool} {userData : Nat}
    (hcurrent : Current s (.reserve caller entry workingArea userData)) :
    Inv (s.granted caller (reserve caller entry workingArea userData s.scheduler)) := by
  obtain hsame | ⟨k, slot, hentry, harea, hfind, hslot, heq⟩ :=
    @reserve_cases caller s.scheduler entry workingArea userData
  · have hnothing : s.granted caller s.scheduler = s := by
      simp only [Tasks.granted, hidle, Tasks.withScheduler]
    rw [hsame, hnothing]
    exact h
  · rw [heq]
    exact granted_inv h hidle (findSlot_some hfind) (hcurrent hentry harea k hfind) hslot

theorem created_inv (h : Inv s) (hstart : s.scheduler.starts caller = some ⟨k, .reserved⟩)
    {area : Nat} (harea : s.AreaFree area) :
    Inv (s.created caller area (create caller true k s.scheduler)) := by
  obtain ⟨hslot, hopen, hle⟩ := h.claimed caller _ hstart
  have hnone : s.worker (s.current caller) = none :=
    h.unborn caller _ hstart fun _ heq => nomatch heq
  have hself : Function.update s.worker (s.current caller) (some s.scheduler.nextThread)
      (s.current caller) = some s.scheduler.nextThread := Function.update_self ..
  have hworker : ∀ n t, s.worker n = some t →
      Function.update s.worker (s.current caller) (some s.scheduler.nextThread) n = some t := by
    intro n t hn
    refine (Function.update_of_ne ?_ ..).trans hn
    rintro rfl
    cases hnone.symm.trans hn
  have hold : ∀ t w, s.scheduler.workers t = some w → t ≠ s.scheduler.nextThread :=
    fun t w hw => Nat.ne_of_lt (h.fresh _ t (h.live t w hw).1)
  have hnumber : ∀ n, s.current caller ≠ n →
      Function.update s.worker (s.current caller) (some s.scheduler.nextThread) n = s.worker n :=
    fun n hn => Function.update_of_ne hn.symm ..
  refine ⟨fun c st hc => h.claimed_setPhase hstart rfl hc,
    fun c c' st st' hc hc' hsame => h.apart_setPhase hstart rfl hc hc' hsame, fun c j t hc => ?_,
    fun c st hc hphase => ?_, fun j t hj => hworker _ _ (h.recorded j t hj), fun t w hw => ?_,
    fun v g hg => ⟨hworker _ _ (h.handles v g hg).1, (h.handles v g hg).2⟩,
    fun c p hp => ⟨⟨hworker _ _ (h.stopping c p hp).1.1, (h.stopping c p hp).1.2⟩,
      (h.stopping c p hp).2⟩,
    fun n hn => ⟨(hnumber n ?_).trans (h.numbered n hn).1, (h.numbered n hn).2⟩,
    fun t w hw => ?_, fun n t hn => ?_⟩
  · obtain ⟨rfl, hst⟩ | ⟨-, hold'⟩ := starts_setStart hc
    · cases hst
      refine ⟨hself, fun w hw => ?_⟩
      obtain ⟨-, hw⟩ | ⟨hne, -⟩ := workers_setWorker hw
      · cases hw
        rfl
      · exact absurd rfl hne
    · obtain ⟨hcreated, hown⟩ := h.created c j t hold'
      refine ⟨hworker _ _ hcreated, fun w hw => ?_⟩
      obtain ⟨rfl, -⟩ | ⟨-, hw⟩ := workers_setWorker hw
      · exact absurd (h.fresh _ _ hcreated) (Nat.lt_irrefl _)
      · exact hown w hw
  · obtain ⟨rfl, hst⟩ | ⟨hne, hold'⟩ := starts_setStart hc
    · cases hst
      exact absurd rfl (hphase _)
    · refine (hnumber _ fun heq => hne ?_).trans (h.unborn c st hold' hphase)
      exact h.apart c caller st _ hold' hstart heq.symm
  · obtain ⟨rfl, hnew⟩ | ⟨-, hw⟩ := workers_setWorker hw
    · cases hnew
      refine ⟨?_, Or.inr ((congrArg s.returned hslot).trans hopen)⟩
      exact (congrArg _ hslot).trans hself
    · exact ⟨hworker _ _ (h.live t w hw).1, (h.live t w hw).2⟩
  · exact Nat.ne_of_lt (Nat.lt_of_le_of_lt hle hn)
  · obtain ⟨rfl, -⟩ | ⟨hne, hlive⟩ := workers_setWorker hw
    · simp only [Tasks.created, Function.update_self]
    · have hlatest := h.latest t w hlive
      have hother : s.areas t ≠ area := by
        rintro rfl
        cases hlive.symm.trans (harea t hlatest)
      simp only [Tasks.created, Function.update_of_ne hne, Function.update_of_ne hother]
      exact hlatest
  · by_cases hn' : s.current caller = n
    · subst hn'
      cases hself.symm.trans hn
      exact Nat.lt_succ_self _
    · exact Nat.lt_succ_of_lt (h.fresh n t ((hnumber n hn').symm.trans hn))

theorem refuse_inv (h : Inv s) (hstart : s.scheduler.starts caller = some ⟨k, .reserved⟩) :
    Inv (s.withScheduler (create caller false k s.scheduler)) := by
  refine ⟨fun c st hc => h.claimed_setPhase hstart rfl hc,
    fun c c' st st' hc hc' hsame => h.apart_setPhase hstart rfl hc hc' hsame, fun c j t hc => ?_,
    fun c st hc hphase => ?_, h.recorded, h.live, h.handles, h.stopping, h.numbered, h.latest,
    h.fresh⟩
  · obtain ⟨-, hst⟩ | ⟨-, hold⟩ := starts_setStart hc
    · cases hst
    · exact h.created c j t hold
  · obtain ⟨rfl, -⟩ | ⟨-, hold⟩ := starts_setStart hc
    · exact h.unborn c _ hstart fun _ heq => nomatch heq
    · exact h.unborn c st hold hphase

theorem returning_inv (h : Inv s) {phase : Phase}
    (hstart : s.scheduler.starts caller = some ⟨k, phase⟩) {slot : Slot}
    (hslot : slot.thread = s.worker (s.current caller)) :
    Inv (s.returning caller (setStart caller none (setSlot k slot s.scheduler))) := by
  obtain ⟨htaken, -, hle⟩ := h.claimed caller _ hstart
  have hold : ∀ c st, (setStart caller none (setSlot k slot s.scheduler)).starts c = some st →
      s.scheduler.starts c = some st ∧ s.current c ≠ s.current caller := by
    intro c st hc
    obtain ⟨-, hst⟩ | ⟨hne, hold⟩ := starts_setStart hc
    · cases hst
    · exact ⟨hold, fun heq => hne (h.apart c caller st _ hold hstart heq)⟩
  have hreturned : ∀ n, s.returned n = true →
      Function.update s.returned (s.current caller) true n = true := by
    intro n hn
    rw [Function.update_apply, hn, ite_self]
  refine ⟨fun c st hc => ?_,
    fun c c' st st' hc hc' => h.apart c c' st st' (hold c st hc).1 (hold c' st' hc').1,
    fun c j t hc => h.created c j t (hold c _ hc).1,
    fun c st hc => h.unborn c st (hold c st hc).1, fun j t hj => ?_, fun t w hw => ?_,
    fun v g hg => ⟨(h.handles v g hg).1, hreturned _ (h.handles v g hg).2⟩,
    fun c p hp => ⟨⟨(h.stopping c p hp).1.1, hreturned _ (h.stopping c p hp).1.2⟩,
      (h.stopping c p hp).2⟩,
    fun n hn => ⟨(h.numbered n hn).1, ?_⟩, h.latest, h.fresh⟩
  · obtain ⟨hst, hne⟩ := hold c st hc
    obtain ⟨hslots, hopen, hbound⟩ := h.claimed c st hst
    exact ⟨hslots, (Function.update_of_ne hne ..).trans hopen, hbound⟩
  · by_cases hjk : j = k
    · subst hjk
      have hthread := (congrArg Slot.thread setSlot_self).symm.trans hj
      exact (congrArg s.worker htaken).trans (hslot.symm.trans hthread)
    · exact h.recorded j t ((congrArg Slot.thread (setSlot_other hjk)).symm.trans hj)
  · obtain ⟨hworker, hheld⟩ := h.live t w hw
    refine ⟨hworker, ?_⟩
    by_cases hwk : w.slot = k
    · subst hwk
      have hthread := hslot.trans ((congrArg s.worker htaken).symm.trans hworker)
      exact Or.inl ((congrArg Slot.thread setSlot_self).trans hthread)
    · refine hheld.imp ((congrArg Slot.thread (setSlot_other hwk)).trans ·) fun hopen => ?_
      -- another slot that this start has taken would be that of its worker
      have hne : s.taken w.slot ≠ s.current caller := by
        intro heq
        rw [heq] at hworker
        cases phase with
        | created t' =>
          obtain ⟨hcreated, hown⟩ := h.created caller k t' hstart
          cases hcreated.symm.trans hworker
          exact hwk (hown w hw)
        | reserved => cases (h.unborn caller _ hstart fun _ heq => nomatch heq).symm.trans hworker
        | failed => cases (h.unborn caller _ hstart fun _ heq => nomatch heq).symm.trans hworker
      exact (Function.update_of_ne hne ..).trans hopen
  · have hne : n ≠ s.current caller := Nat.ne_of_gt (Nat.lt_of_le_of_lt hle hn)
    exact (Function.update_of_ne hne ..).trans (h.numbered n hn).2

theorem record_inv (h : Inv s) {task : Nat}
    (hstart : s.scheduler.starts caller = some ⟨k, .created thread⟩) :
    Inv ((s.returning caller (record caller k thread s.scheduler)).setHandle task
      (some ⟨k, s.current caller, thread⟩)) := by
  obtain ⟨hcreated, -⟩ := h.created caller k thread hstart
  refine setHandle_inv (returning_inv h hstart hcreated.symm) fun g hg => ?_
  cases hg
  exact ⟨hcreated, Function.update_self ..⟩

theorem abandon_inv (h : Inv s) (hstart : s.scheduler.starts caller = some ⟨k, .failed⟩) :
    Inv (s.returning caller (abandon caller k s.scheduler)) := by
  have hnone : s.worker (s.current caller) = none :=
    h.unborn caller _ hstart fun _ heq => nomatch heq
  refine returning_inv h hstart (Eq.trans ?_ hnone.symm)
  apply Option.eq_none_iff_forall_ne_some.mpr
  intro t ht
  have hworker := h.recorded k t ht
  rw [(h.claimed caller _ hstart).1, hnone] at hworker
  cases hworker

end Starts

section Workers

theorem progress_inv (h : Inv s) {w : Worker} (hw : s.scheduler.workers thread = some w)
    (progress : Progress) :
    Inv (s.withScheduler (setWorker thread (some ⟨w.slot, progress⟩) s.scheduler)) := by
  have hold : ∀ {t w'}, (setWorker thread (some ⟨w.slot, progress⟩) s.scheduler).workers t = some w' →
      ∃ v, s.scheduler.workers t = some v ∧ v.slot = w'.slot := by
    intro t w' hw'
    obtain ⟨rfl, hnew⟩ | ⟨-, hsame⟩ := workers_setWorker hw'
    · cases hnew
      exact ⟨w, hw, rfl⟩
    · exact ⟨w', hsame, rfl⟩
  refine ⟨h.claimed, h.apart, fun c j t hc => ?_, h.unborn, h.recorded, fun t w' hw' => ?_,
    h.handles, h.stopping, h.numbered, fun t w' hw' => ?_, h.fresh⟩
  · obtain ⟨hcreated, hown⟩ := h.created c j t hc
    refine ⟨hcreated, fun w' hw' => ?_⟩
    obtain ⟨v, hv, hslot⟩ := hold hw'
    exact hslot.symm.trans (hown v hv)
  · obtain ⟨v, hv, hslot⟩ := hold hw'
    rw [← hslot]
    exact h.live t v hv
  · obtain ⟨v, hv, -⟩ := hold hw'
    exact h.latest t v hv

theorem slot_ne (h : Inv s) {t t' : Nat} {w w' : Worker} (hw : s.scheduler.workers t = some w)
    (hw' : s.scheduler.workers t' = some w') (hne : t ≠ t') : w.slot ≠ w'.slot := by
  intro hslot
  have hworker := (h.live t w hw).1
  rw [hslot, (h.live t' w' hw').1] at hworker
  exact hne (Option.some.inj hworker).symm

theorem finish_inv (h : Inv s) {w : Worker} (hw : s.scheduler.workers thread = some w) :
    Inv (s.withScheduler (finish thread w.slot s.scheduler)) := by
  refine ⟨h.claimed, h.apart, fun c j t hc => ?_, h.unborn, fun j t hj => ?_, fun t v hv => ?_,
    h.handles, h.stopping, h.numbered, fun t v hv => ?_, h.fresh⟩
  · obtain ⟨hcreated, hown⟩ := h.created c j t hc
    refine ⟨hcreated, fun v hv => ?_⟩
    obtain ⟨-, hnone⟩ | ⟨-, hold⟩ := workers_setWorker hv
    · cases hnone
    · exact hown v hold
  · by_cases hjk : j = w.slot
    · subst hjk
      cases (congrArg Slot.thread setSlot_self).symm.trans hj
    · exact h.recorded j t ((congrArg Slot.thread (setSlot_other hjk)).symm.trans hj)
  · obtain ⟨-, hnone⟩ | ⟨hne, hold⟩ := workers_setWorker hv
    · cases hnone
    · obtain ⟨hworker, hheld⟩ := h.live t v hold
      refine ⟨hworker, hheld.imp_left ?_⟩
      exact (congrArg Slot.thread (setSlot_other (slot_ne h hold hw hne))).trans
  · obtain ⟨-, hnone⟩ | ⟨-, hold⟩ := workers_setWorker hv
    · cases hnone
    · exact h.latest t v hold

end Workers

section Stops

theorem setStop_inv (h : Inv s) {stop : Option (Fin 4 × Nat)} {stopping : Option Stopping}
    (howns : ∀ p ∈ stopping, Owns s p.handle ∧ stop = some (p.handle.slot, p.handle.worker)) :
    Inv ((s.withScheduler (setStop caller stop s.scheduler)).setStopping caller stopping) := by
  refine ⟨h.claimed, h.apart, h.created, h.unborn, h.recorded, h.live, h.handles, fun c p hp => ?_,
    h.numbered, h.latest, h.fresh⟩
  simp only [Tasks.setStopping, Tasks.withScheduler, setStop, Function.update_apply] at hp ⊢
  split at hp
  next heq =>
    rw [if_pos heq]
    exact howns p hp
  next hne =>
    rw [if_neg hne]
    exact h.stopping c p hp

/-- The thread that a stop reads is the worker of its handle. -/
theorem stop_inv (h : Inv s) {task : Nat} {handle : Handle} (hhandle : s.handles task = some handle)
    (hthread : (s.scheduler.slots handle.slot).thread = some thread)
    (hcurrent : Current s (.stop caller task)) :
    Inv ((s.withScheduler (stop caller handle.slot s.scheduler)).setStopping caller
      (some ⟨task, handle, false⟩)) := by
  have howns := h.handles task handle hhandle
  have hread : thread = handle.worker := by
    obtain hnone | htaken := hcurrent handle hhandle
    · cases hnone.symm.trans hthread
    · have hworker := h.recorded handle.slot thread hthread
      rw [htaken, howns.1] at hworker
      exact (Option.some.inj hworker).symm
  have hstop : stop caller handle.slot s.scheduler =
      setStop caller (some (handle.slot, handle.worker)) s.scheduler := by
    simp only [stop, hthread, hread]
  rw [hstop]
  refine setStop_inv h fun p hp => ?_
  cases hp
  exact ⟨howns, rfl⟩

theorem clear_inv (h : Inv s) {handle : Handle} (howns : Owns s handle)
    (hended : s.scheduler.workers handle.worker = none)
    (hcurrent : s.scheduler.slots handle.slot = Slot.cleared ∨
      s.taken handle.slot = handle.start) :
    Inv (s.withScheduler (setSlot handle.slot .cleared s.scheduler)) := by
  refine ⟨h.claimed, h.apart, h.created, h.unborn, fun j t hj => ?_, fun t w hw => ?_, h.handles,
    h.stopping, h.numbered, h.latest, h.fresh⟩
  · by_cases hjk : j = handle.slot
    · subst hjk
      cases (congrArg Slot.thread setSlot_self).symm.trans hj
    · exact h.recorded j t ((congrArg Slot.thread (setSlot_other hjk)).symm.trans hj)
  · obtain ⟨hworker, hheld⟩ := h.live t w hw
    refine ⟨hworker, hheld.imp_left fun hthread => ?_⟩
    have hne : w.slot ≠ handle.slot := by
      intro heq
      obtain hclear | htaken := hcurrent
      · rw [heq, hclear] at hthread
        cases hthread
      · rw [heq, htaken, howns.1] at hworker
        cases hworker
        cases hended.symm.trans hw
    exact (congrArg Slot.thread (setSlot_other hne)).trans hthread

theorem clear_keeps (h : Inv s) {handle : Handle} (howns : Owns s handle)
    (hcurrent : s.scheduler.slots handle.slot = Slot.cleared ∨
      s.taken handle.slot = handle.start) :
    Keeps handle s (s.withScheduler (setSlot handle.slot .cleared s.scheduler)) := by
  -- a slot with another owner is another slot, or the same one and clear
  have hkept : ∀ k, (s.taken handle.slot = handle.start → k ≠ handle.slot) →
      (setSlot handle.slot .cleared s.scheduler).slots k = s.scheduler.slots k := by
    intro k hother
    by_cases hk : k = handle.slot
    · subst hk
      obtain hclear | htaken := hcurrent
      · rw [setSlot_self, hclear]
      · exact absurd rfl (hother htaken)
    · exact setSlot_other hk
  refine ⟨fun _ _ => rfl, fun t w hw hne => ⟨hw, hkept _ fun htaken heq => ?_⟩,
    fun c st hc => ⟨hc, hkept _ fun htaken heq => ?_⟩, fun k t hk hne => hkept k fun htaken heq => ?_⟩
  · have hworker := (h.live t w hw).1
    rw [heq, htaken, howns.1] at hworker
    exact hne (Option.some.inj hworker).symm
  · obtain ⟨hslot, hopen, -⟩ := h.claimed c st hc
    rw [heq, htaken] at hslot
    rw [← hslot, howns.2] at hopen
    cases hopen
  · have hworker := h.recorded k t hk
    rw [heq, htaken, howns.1] at hworker
    exact hne (Option.some.inj hworker).symm

theorem join_cases (hstep : taskStep s (.join caller) = some t) :
    ∃ p k thread, s.stopping caller = some p ∧ s.scheduler.stops caller = some (k, thread) ∧
      s.scheduler.workers thread = none ∧
      t = ((s.withScheduler (join caller k s.scheduler)).setStopping caller none).setHandle
        p.task none := by
  simp only [taskStep] at hstep
  split at hstep
  next task handle k thread hstopping hstop =>
    split at hstep
    next =>
      obtain ⟨next, hnext, rfl⟩ := Option.map_eq_some_iff.mp hstep
      obtain ⟨k', thread', hstop', hended, rfl⟩ := join_of_step hnext
      cases hstop.symm.trans hstop'
      exact ⟨_, k, thread, hstopping, hstop, hended, rfl⟩
    next => cases hstep
  next => cases hstep

theorem terminate_cases (hstep : taskStep s (.terminate caller) = some t) :
    ∃ p k thread, s.stopping caller = some p ∧ s.scheduler.stops caller = some (k, thread) ∧
      t = (s.terminateThread thread).setStopping caller (some { p with terminated := true }) := by
  simp only [taskStep] at hstep
  split at hstep
  next task handle k thread hstopping hstop =>
    cases hstep
    exact ⟨_, k, thread, hstopping, hstop, rfl⟩
  next => cases hstep

theorem stop_cases {task : Nat} (hstep : taskStep s (.stop caller task) = some t) :
    s.handles task = none ∧ t = s ∨
      ∃ handle, s.handles task = some handle ∧
        (t = s.setHandle task none ∨
          ∃ thread, (s.scheduler.slots handle.slot).thread = some thread ∧
            t = (s.withScheduler (stop caller handle.slot s.scheduler)).setStopping caller
              (some ⟨task, handle, false⟩)) := by
  simp only [taskStep] at hstep
  split at hstep
  next hnone =>
    cases hstep
    exact Or.inl ⟨hnone, rfl⟩
  next handle hhandle _ =>
    refine Or.inr ⟨handle, hhandle, ?_⟩
    split at hstep
    next =>
      cases hstep
      exact Or.inl rfl
    next hthread =>
      obtain ⟨thread, hthread⟩ := Option.ne_none_iff_exists'.mp (mt Option.isNone_iff_eq_none.mpr hthread)
      obtain ⟨next, hnext, rfl⟩ := Option.map_eq_some_iff.mp hstep
      obtain ⟨-, rfl⟩ := stop_of_step hnext
      exact Or.inr ⟨thread, hthread, rfl⟩
  next => cases hstep

theorem stopsOwn_of_current (h : Inv s) {op : Op} (hcurrent : Current s op) : StopsOwn s op := by
  have hself : ∀ handle, Keeps handle s s := fun handle =>
    ⟨fun _ _ => rfl, fun _ _ hw _ => ⟨hw, rfl⟩, fun _ _ hc => ⟨hc, rfl⟩, fun _ _ _ _ => rfl⟩
  intro handle hstopped t hstep
  cases op with
  | stop caller task =>
    obtain ⟨-, rfl⟩ | ⟨_, -, rfl | ⟨thread, hthread, rfl⟩⟩ := stop_cases hstep
    · exact hself handle
    · exact ⟨(hself handle).terminate, (hself handle).workers, (hself handle).starts,
        (hself handle).slots⟩
    · simp only [stop, hthread]
      exact ⟨(hself handle).terminate, (hself handle).workers, (hself handle).starts,
        (hself handle).slots⟩
  | terminate caller =>
    obtain ⟨p, k, thread, hp, hstop, rfl⟩ := terminate_cases hstep
    obtain ⟨-, hown⟩ := h.stopping caller p hp
    obtain ⟨rfl, rfl⟩ := Prod.mk.inj (Option.some.inj (hstop.symm.trans hown))
    have hlatest := hcurrent _ hstop
    have hhandle : p.handle = handle := by
      rw [stopped, hp] at hstopped
      exact Option.some.inj hstopped
    subst hhandle
    simp only [Tasks.terminateThread, hlatest]
    exact ⟨fun u hu => Function.update_of_ne hu .., (hself p.handle).workers,
      (hself p.handle).starts, (hself p.handle).slots⟩
  | join caller =>
    obtain ⟨p, k, thread, hp, hstop, -, rfl⟩ := join_cases hstep
    obtain ⟨howns, hown⟩ := h.stopping caller p hp
    obtain ⟨rfl, rfl⟩ := Prod.mk.inj (Option.some.inj (hstop.symm.trans hown))
    have hhandle : p.handle = handle := by
      rw [stopped, hp] at hstopped
      exact Option.some.inj hstopped
    subst hhandle
    have hkeeps := clear_keeps h howns (hcurrent p hp)
    exact ⟨hkeeps.terminate, hkeeps.workers, hkeeps.starts, hkeeps.slots⟩
  | reserve | create | refuse | record | abandon | enter | leave | finish | copy =>
    cases hstopped

end Stops

theorem step_inv {op : Op} (h : Inv s) (hcurrent : Current s op) (hstep : taskStep s op = some t) :
    Inv t := by
  cases op with
  | reserve caller entry workingArea userData =>
    obtain ⟨next, hnext, rfl⟩ := Option.map_eq_some_iff.mp hstep
    obtain ⟨hidle, rfl⟩ := reserve_of_step hnext
    exact reserve_inv h hidle hcurrent
  | create caller area =>
    simp only [taskStep] at hstep
    split at hstep
    next harea =>
      obtain ⟨next, hnext, rfl⟩ := Option.map_eq_some_iff.mp hstep
      obtain ⟨k, hstart, rfl⟩ := create_of_step hnext
      exact created_inv h hstart harea
    next => cases hstep
  | refuse caller =>
    obtain ⟨next, hnext, rfl⟩ := Option.map_eq_some_iff.mp hstep
    obtain ⟨k, hstart, rfl⟩ := create_of_step hnext
    exact refuse_inv h hstart
  | record caller task =>
    simp only [taskStep] at hstep
    split at hstep
    next k thread hstart =>
      obtain ⟨next, hnext, rfl⟩ := Option.map_eq_some_iff.mp hstep
      obtain ⟨k', thread', hstart', rfl⟩ := record_of_step hnext
      cases hstart.symm.trans hstart'
      exact record_inv h hstart
    next => cases hstep
  | abandon caller =>
    obtain ⟨next, hnext, rfl⟩ := Option.map_eq_some_iff.mp hstep
    obtain ⟨k, hstart, rfl⟩ := abandon_of_step hnext
    exact abandon_inv h hstart
  | enter thread =>
    obtain ⟨next, hnext, rfl⟩ := Option.map_eq_some_iff.mp hstep
    obtain ⟨k, hw, rfl⟩ := enter_of_step hnext
    obtain ⟨progress, henter⟩ := enter_eq thread k s.scheduler
    rw [henter]
    exact progress_inv h hw progress
  | leave thread =>
    obtain ⟨next, hnext, rfl⟩ := Option.map_eq_some_iff.mp hstep
    obtain ⟨k, _, _, hw, rfl⟩ := leave_of_step hnext
    exact progress_inv h hw .returned
  | finish thread =>
    obtain ⟨next, hnext, rfl⟩ := Option.map_eq_some_iff.mp hstep
    obtain ⟨k, hw, rfl⟩ := finish_of_step hnext
    exact finish_inv h hw
  | copy task source =>
    cases hstep
    exact setHandle_inv h fun g hg => h.handles source g hg
  | stop caller task =>
    obtain ⟨-, rfl⟩ | ⟨handle, hhandle, rfl | ⟨thread, hthread, rfl⟩⟩ := stop_cases hstep
    · exact h
    · exact setHandle_inv h fun _ hg => by cases hg
    · exact stop_inv h hhandle hthread hcurrent
  | terminate caller =>
    obtain ⟨p, k, thread, hp, hstop, rfl⟩ := terminate_cases hstep
    refine setStopping_inv (terminateThread_inv h) fun q hq => ?_
    cases hq
    have howns := h.stopping caller p hp
    unfold Tasks.terminateThread
    split
    · exact howns
    · exact howns
  | join caller =>
    obtain ⟨p, k, thread, hp, hstop, hended, rfl⟩ := join_cases hstep
    obtain ⟨howns, hown⟩ := h.stopping caller p hp
    obtain ⟨rfl, rfl⟩ := Prod.mk.inj (Option.some.inj (hstop.symm.trans hown))
    have hclear := clear_inv h howns hended (hcurrent p hp)
    have hdone := @setStop_inv _ caller hclear none none fun _ hq => by cases hq
    exact setHandle_inv hdone fun _ hg => by cases hg

/-- However starts, stops and the ends of workers are interleaved: a stop touches only the task of
its handle, as long as no slot and no working area is used again under it. -/
theorem stops_only_own {ops : List Op} (hcurrent : Along taskStep Current noTasks ops) :
    Along taskStep StopsOwn noTasks ops :=
  along_of_guarded_invariant (fun _ _ h => stopsOwn_of_current h) (fun _ _ _ h => step_inv h)
    inv_noTasks hcurrent

/-- Two tasks; the first is stopped, its handle and a copy of it are stopped again, and a third one
takes its slot and its working area. -/
def stoppedInTime : List Op :=
  [.reserve 0 (some 7) true 1, .create 0 10, .enter 0, .record 0 0, .reserve 0 (some 8) true 2,
    .create 0 11, .record 0 1, .copy 2 0, .stop 1 0, .terminate 1, .leave 0, .finish 0, .join 1,
    .stop 1 0, .stop 1 2, .reserve 1 (some 9) true 3, .create 1 10, .record 1 0, .stop 0 0,
    .terminate 0, .enter 2, .leave 2, .finish 2, .join 0]

theorem stops_only_own_stoppedInTime :
    (∃ t, stoppedInTime.foldlM taskStep noTasks = some t) ∧
      Along taskStep StopsOwn noTasks stoppedInTime :=
  ⟨⟨_, rfl⟩, stops_only_own (by decide)⟩

def starting (caller area task : Nat) : List Op :=
  [.reserve caller (some 7) true 0, .create caller area, .record caller task]

def ending (thread : Nat) : List Op := [.enter thread, .leave thread, .finish thread]

/-- A task ends by itself, another one takes its slot, and the handle of the first one is stopped. -/
def recycled : List Op := starting 0 10 0 ++ ending 0 ++ starting 0 11 1 ++ [.stop 0 0]

def overtaken : List Op :=
  starting 0 10 0 ++ [.stop 1 0, .terminate 1] ++ ending 0 ++ starting 0 11 1

/-- A task ends before it is asked to, and another one takes its working area. -/
def replaced : List Op := starting 0 10 0 ++ [.stop 1 0] ++ ending 0 ++ starting 0 10 1

/-- The other task is asked to end, or loses its slot. -/
theorem stops_another :
    ¬ Along taskStep StopsOwn noTasks (recycled ++ [.terminate 0]) ∧
      ¬ Along taskStep StopsOwn noTasks (overtaken ++ [.join 1]) ∧
      ¬ Along taskStep StopsOwn noTasks (replaced ++ [.terminate 1]) := by
  refine ⟨fun h => ?_, fun h => ?_, fun h => ?_⟩
  · have hkeeps := h.after rfl ⟨0, 1, 0⟩ rfl _ rfl
    exact absurd (hkeeps.terminate 1 (by decide)) (by decide)
  · have hkeeps := h.after rfl ⟨0, 1, 0⟩ rfl _ rfl
    obtain ⟨-, hslot⟩ := hkeeps.workers 1 _ rfl (by decide)
    exact absurd hslot (by decide)
  · have hkeeps := h.after rfl ⟨0, 1, 0⟩ rfl _ rfl
    exact absurd (hkeeps.terminate 1 (by decide)) (by decide)

end NanoVNA.TaskRecycling
