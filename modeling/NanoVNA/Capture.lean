import NanoVNA.GuardedRun
import NanoVNA.Word32

namespace NanoVNA.Capture

open NanoVNA.Word32 NanoVNA.GuardedRun

variable {A B : Type}

/-- The accumulators after `reset_dsp_accumerator`, and `dsp_process` of one buffer. -/
structure Dsp (A B : Type) where
  reset : A
  process : A → B → A

/-- Where the sweep thread stands: in `sweep_service_start_capture` between its stores, or in the
loop of `sweep_service_wait_for_capture`. -/
inductive Control
  | idle
  | readied
  | loaded (bandwidth : Nat)
  | counting
  | polling (startTime : Nat)
  | checked (startTime : Nat)
  | expired
  deriving DecidableEq, Repr

/-- The last two fields are not in the code: the buffers added since this capture reset the
accumulators, if it has and has left none out since, and the bandwidths in force during it. -/
structure State (A B : Type) where
  bandwidth : Nat
  readyTime : Nat
  waitCount : Nat
  accumulators : A
  control : Control
  returned : Option Bool
  sinceReset : Option (List B)
  inForce : List Nat
  deriving DecidableEq, Repr

inductive Action (B : Type)
  | ready (now delay : Nat)
  | load
  | store
  | wait (now : Nat)
  | poll
  | clock (now : Nat)
  | expire
  | setBandwidth (count : Nat)
  | interrupt (now : Nat) (buffer : B)
  deriving DecidableEq, Repr

variable (dsp : Dsp A B)

def i2sLldServeRxInterrupt (now : Nat) (buffer : B) (s : State A B) : State A B :=
  let wait := s.waitCount
  if wait = 0 ∨ u32 now < s.readyTime then s
  else if s.bandwidth + 2 < wait then
    { s with waitCount := wait - 1, sinceReset := none }
  else if wait = s.bandwidth + 2 then
    { s with accumulators := dsp.reset, waitCount := wait - 1, sinceReset := some [] }
  else
    { s with
      accumulators := dsp.process s.accumulators buffer
      waitCount := wait - 1
      sinceReset := s.sinceReset.map fun buffers => buffers ++ [buffer] }

def setBandwidth (count : Nat) (s : State A B) : State A B :=
  { s with
    bandwidth := count % 512
    inForce := if s.control = .idle then s.inForce else s.inForce ++ [count % 512] }

/-- `MS2ST(2000)` -/
def timeout : Nat := 200000

/-- One action of the sweep thread, of a thread that sets the bandwidth, or of the receiver. -/
def step (s : State A B) : Action B → Option (State A B)
  | .ready now delay =>
    if s.control = .idle ∨ s.control = .counting then
      some { s with
        readyTime := u32 (u32 now + delay)
        control := .readied
        returned := none
        inForce := [s.bandwidth] }
    else none
  | .load =>
    if s.control = .readied then some { s with control := .loaded s.bandwidth } else none
  | .store =>
    match s.control with
    | .loaded bandwidth =>
      some { s with
        waitCount := (bandwidth + 2) % 65536
        control := .counting
        sinceReset := none }
    | _ => none
  | .wait now =>
    if s.control = .counting then some { s with control := .polling (u32 now) } else none
  | .poll =>
    match s.control with
    | .polling startTime =>
      if s.waitCount = 0 then some { s with control := .idle, returned := some true }
      else some { s with control := .checked startTime }
    | _ => none
  | .clock now =>
    match s.control with
    | .checked startTime =>
      if timeout ≤ sub32 (u32 now) startTime then some { s with control := .expired }
      else some { s with control := .polling startTime }
    | _ => none
  | .expire =>
    if s.control = .expired then
      some { s with waitCount := 0, control := .idle, returned := some false }
    else none
  | .setBandwidth count => some (setBandwidth count s)
  | .interrupt now buffer => some (i2sLldServeRxInterrupt dsp now buffer s)

/-- Before the first capture, with a bandwidth that was set and any accumulators. -/
def started (count : Nat) (accumulators : A) : State A B :=
  ⟨count % 512, 0, 0, accumulators, .idle, none, none, []⟩

/-- The accumulators are the sum of one buffer more than a bandwidth of this capture, each of them
after the buffer at which the capture reset them. -/
def Complete (s : State A B) : Prop :=
  ∃ (buffers : List B) (b : Nat), s.sinceReset = some buffers ∧ b ∈ s.inForce ∧
    buffers.length = b + 1 ∧ s.accumulators = buffers.foldl dsp.process dsp.reset

/-- An interrupt adds a buffer only when the reset of this capture is not owed. -/
def ResetFirst (s : State A B) : Action B → Prop
  | .interrupt now _ =>
    s.waitCount ≠ 0 → s.readyTime ≤ u32 now → s.waitCount < s.bandwidth + 2 →
      s.sinceReset.isSome
  | _ => True

def Control.counts : Control → Bool
  | .counting | .polling _ | .checked _ | .expired => true
  | _ => false

/-- Every buffer since the reset has been counted down; before the reset something is left. -/
def Counted (s : State A B) : Prop :=
  match s.sinceReset with
  | none => 0 < s.waitCount
  | some buffers =>
    ∃ b ∈ s.inForce, buffers.length + s.waitCount = b + 1 ∧
      s.accumulators = buffers.foldl dsp.process dsp.reset

structure Inv (s : State A B) : Prop where
  bandwidth_lt : s.bandwidth < 512
  loaded_lt : ∀ b, s.control = .loaded b → b < 512
  inForce : s.control ≠ .idle → s.bandwidth ∈ s.inForce
  counted : s.control.counts → Counted dsp s
  returned : s.returned = some true → s.control = .idle ∧ s.waitCount = 0 ∧ Complete dsp s

variable {dsp} {s t : State A B} {a : Action B} {now : Nat} {buffer : B}

theorem inv_started (count : Nat) (accumulators : A) :
    Inv dsp (started count accumulators : State A B) where
  bandwidth_lt := Nat.mod_lt _ (by decide)
  loaded_lt := fun _ h => nomatch h
  inForce := fun h => absurd rfl h
  counted := fun h => nomatch h
  returned := fun h => nomatch h

theorem interrupt_idle (h : s.waitCount = 0) : i2sLldServeRxInterrupt dsp now buffer s = s :=
  if_pos (Or.inl h)

theorem interrupt_frame :
    (i2sLldServeRxInterrupt dsp now buffer s).bandwidth = s.bandwidth ∧
      (i2sLldServeRxInterrupt dsp now buffer s).control = s.control ∧
      (i2sLldServeRxInterrupt dsp now buffer s).returned = s.returned ∧
      (i2sLldServeRxInterrupt dsp now buffer s).inForce = s.inForce := by
  unfold i2sLldServeRxInterrupt
  dsimp only
  split
  · exact ⟨rfl, rfl, rfl, rfl⟩
  split
  · exact ⟨rfl, rfl, rfl, rfl⟩
  split <;> exact ⟨rfl, rfl, rfl, rfl⟩

theorem interrupt_counted (hb : s.bandwidth ∈ s.inForce) (h : Counted dsp s)
    (hguard : ResetFirst s (.interrupt now buffer)) :
    Counted dsp (i2sLldServeRxInterrupt dsp now buffer s) := by
  unfold i2sLldServeRxInterrupt
  dsimp only
  split
  next => exact h
  next hserved =>
    obtain ⟨hwait, hready⟩ := not_or.mp hserved
    split
    next hmore => exact Nat.sub_pos_of_lt (by omega)
    next hmore =>
      split
      next hreset => exact ⟨s.bandwidth, hb, by simp [hreset], rfl⟩
      next hreset =>
        have hsome := hguard hwait (Nat.le_of_not_lt hready) (by omega)
        obtain ⟨buffers, hsince⟩ := Option.isSome_iff_exists.mp hsome
        unfold Counted at h ⊢
        rw [hsince] at h
        obtain ⟨b, hmem, hlength, hsum⟩ := h
        simp only [hsince, Option.map_some]
        refine ⟨b, hmem, ?_, ?_⟩
        · rw [List.length_append, List.length_singleton]
          omega
        · rw [List.foldl_append, ← hsum, List.foldl_cons, List.foldl_nil]

theorem interrupt_inv (h : Inv dsp s) (hguard : ResetFirst s (.interrupt now buffer)) :
    Inv dsp (i2sLldServeRxInterrupt dsp now buffer s) := by
  obtain ⟨hbandwidth, hcontrol, hreturned, hinForce⟩ :=
    @interrupt_frame A B dsp s now buffer
  refine ⟨hbandwidth ▸ h.bandwidth_lt, hcontrol ▸ h.loaded_lt, ?_, ?_, fun hr => ?_⟩
  · rw [hcontrol, hbandwidth, hinForce]
    exact h.inForce
  · intro hcounts
    rw [hcontrol] at hcounts
    refine interrupt_counted (h.inForce ?_) (h.counted hcounts) hguard
    intro hidle
    rw [hidle] at hcounts
    cases hcounts
  · rw [hreturned] at hr
    obtain ⟨hidle, hzero, hcomplete⟩ := h.returned hr
    rw [interrupt_idle hzero]
    exact ⟨hidle, hzero, hcomplete⟩

theorem setBandwidth_inv (count : Nat) (h : Inv dsp s) : Inv dsp (setBandwidth count s) := by
  refine ⟨Nat.mod_lt _ (by decide), h.loaded_lt, fun hbusy => ?_, fun hcounts => ?_, fun hr => ?_⟩
  · have hadded : (setBandwidth count s).inForce = s.inForce ++ [count % 512] := if_neg hbusy
    rw [hadded]
    exact List.mem_append_right _ (List.mem_singleton.mpr rfl)
  · have hcounted := h.counted hcounts
    unfold Counted at hcounted ⊢
    cases hsince : s.sinceReset with
    | none => simpa only [setBandwidth, hsince] using hcounted
    | some buffers =>
      rw [hsince] at hcounted
      obtain ⟨b, hmem, hlength, hsum⟩ := hcounted
      simp only [setBandwidth, hsince]
      refine ⟨b, ?_, hlength, hsum⟩
      split
      · exact hmem
      · exact List.mem_append_left _ hmem
  · obtain ⟨hidle, hzero, buffers, b, hsince, hmem, hlength, hsum⟩ := h.returned hr
    refine ⟨hidle, hzero, buffers, b, hsince, ?_, hlength, hsum⟩
    simpa only [setBandwidth, hidle, if_true] using hmem

/-- The wait ends with the count at zero, so the reset is behind and all its buffers are added. -/
theorem complete_of_counted (h : Counted dsp s) (hzero : s.waitCount = 0) : Complete dsp s := by
  unfold Counted at h
  cases hsince : s.sinceReset with
  | none =>
    rw [hsince, hzero] at h
    exact absurd h (Nat.lt_irrefl 0)
  | some buffers =>
    rw [hsince] at h
    obtain ⟨b, hmem, hlength, hsum⟩ := h
    rw [hzero] at hlength
    exact ⟨buffers, b, hsince, hmem, hlength, hsum⟩

theorem not_returned {P : Prop} (h : Inv dsp s) (hbusy : s.control ≠ .idle)
    (hr : s.returned = some true) : P :=
  absurd (h.returned hr).1 hbusy

theorem moved_inv {control : Control} (h : Inv dsp s) (hbusy : s.control ≠ .idle)
    (hloaded : ∀ b, control = .loaded b → b < 512)
    (hcounts : control.counts → s.control.counts) : Inv dsp { s with control := control } where
  bandwidth_lt := h.bandwidth_lt
  loaded_lt := hloaded
  inForce := fun _ => h.inForce hbusy
  counted := fun hc => h.counted (hcounts hc)
  returned := fun hr => not_returned h hbusy hr

theorem ready_inv (now delay : Nat) (h : Inv dsp s) (hs : step dsp s (.ready now delay) = some t) :
    Inv dsp t := by
  obtain ⟨-, ht⟩ := Option.ite_none_right_eq_some.mp hs
  cases ht
  exact ⟨h.bandwidth_lt, fun _ hl => (nomatch hl), fun _ => List.mem_singleton.mpr rfl,
    fun hc => (nomatch hc), fun hr => (nomatch hr)⟩

theorem load_inv (h : Inv dsp s) (hs : step dsp s .load = some t) : Inv dsp t := by
  obtain ⟨hcontrol, ht⟩ := Option.ite_none_right_eq_some.mp hs
  cases ht
  refine moved_inv h (by simp [hcontrol]) (fun b hl => ?_) (fun hc => nomatch hc)
  cases hl
  exact h.bandwidth_lt

theorem store_inv (h : Inv dsp s) (hs : step dsp s .store = some t) : Inv dsp t := by
  simp only [step] at hs
  split at hs
  next bandwidth hcontrol =>
    cases hs
    have hbusy : s.control ≠ .idle := by simp [hcontrol]
    have hlt := h.loaded_lt bandwidth hcontrol
    have hpos : 0 < (bandwidth + 2) % 65536 := by omega
    exact ⟨h.bandwidth_lt, fun _ hl => (nomatch hl), fun _ => h.inForce hbusy, fun _ => hpos,
      fun hr => not_returned h hbusy hr⟩
  next => cases hs

theorem wait_inv (now : Nat) (h : Inv dsp s) (hs : step dsp s (.wait now) = some t) :
    Inv dsp t := by
  obtain ⟨hcontrol, ht⟩ := Option.ite_none_right_eq_some.mp hs
  cases ht
  exact moved_inv h (by simp [hcontrol]) (fun _ hl => nomatch hl) (fun _ => hcontrol ▸ rfl)

theorem poll_inv (h : Inv dsp s) (hs : step dsp s .poll = some t) : Inv dsp t := by
  simp only [step] at hs
  split at hs
  next startTime hcontrol =>
    split at hs
    next hzero =>
      cases hs
      have hcomplete := complete_of_counted (h.counted (hcontrol ▸ rfl)) hzero
      exact ⟨h.bandwidth_lt, fun _ hl => (nomatch hl), fun hidle => absurd rfl hidle,
        fun hc => (nomatch hc), fun _ => ⟨rfl, hzero, hcomplete⟩⟩
    next =>
      cases hs
      exact moved_inv h (by simp [hcontrol]) (fun _ hl => nomatch hl) (fun _ => hcontrol ▸ rfl)
  next => cases hs

theorem clock_inv (now : Nat) (h : Inv dsp s) (hs : step dsp s (.clock now) = some t) :
    Inv dsp t := by
  simp only [step] at hs
  split at hs
  next startTime hcontrol =>
    split at hs <;> cases hs
    all_goals
      exact moved_inv h (by simp [hcontrol]) (fun _ hl => nomatch hl) (fun _ => hcontrol ▸ rfl)
  next => cases hs

theorem expire_inv (h : Inv dsp s) (hs : step dsp s .expire = some t) : Inv dsp t := by
  obtain ⟨-, ht⟩ := Option.ite_none_right_eq_some.mp hs
  cases ht
  exact ⟨h.bandwidth_lt, fun _ hl => (nomatch hl), fun hidle => absurd rfl hidle,
    fun hc => (nomatch hc), fun hr => (nomatch hr)⟩

theorem step_inv (h : Inv dsp s) (hguard : ResetFirst s a) (hs : step dsp s a = some t) :
    Inv dsp t := by
  cases a with
  | ready now delay => exact ready_inv now delay h hs
  | load => exact load_inv h hs
  | store => exact store_inv h hs
  | wait now => exact wait_inv now h hs
  | poll => exact poll_inv h hs
  | clock now => exact clock_inv now h hs
  | expire => exact expire_inv h hs
  | setBandwidth count =>
    cases hs
    exact setBandwidth_inv count h
  | interrupt now buffer =>
    cases hs
    exact interrupt_inv h hguard

instance (s : State A B) (a : Action B) : Decidable (ResetFirst s a) :=
  match a with
  | .interrupt now _ =>
    inferInstanceAs (Decidable (s.waitCount ≠ 0 → s.readyTime ≤ u32 now →
      s.waitCount < s.bandwidth + 2 → s.sinceReset.isSome))
  | .ready _ _ | .load | .store | .wait _ | .poll | .clock _ | .expire | .setBandwidth _ =>
    inferInstanceAs (Decidable True)

/-- Whatever the bandwidth, the delays and the interleaving with other threads and interrupts: as
long as no buffer is added while the reset is owed, a wait that returns true leaves the sum of one
buffer more than a bandwidth of this capture. -/
theorem captured_complete (count : Nat) (accumulators : A) {as : List (Action B)}
    (hguard : Along (step dsp) ResetFirst (started count accumulators) as)
    (hrun : as.foldlM (step dsp) (started count accumulators) = some s) :
    s.returned = some true → Complete dsp s :=
  fun hr => ((foldlM_invariant_of_along (fun _ _ _ => step_inv) (inv_started count accumulators)
    hguard hrun).returned hr).2.2

def recorder : Dsp (List Nat) Nat := ⟨[], fun buffers buffer => buffers ++ [buffer]⟩

def lowered : List (Action Nat) :=
  [.ready 0 10, .load, .store, .wait 1, .interrupt 5 1, .interrupt 12 2, .setBandwidth 0,
    .interrupt 13 3, .interrupt 14 4, .poll]

theorem captured_complete_lowered :
    ∃ s, lowered.foldlM (step recorder) (started 1 [9]) = some s ∧ s.accumulators = [4] ∧
      Complete recorder s :=
  have hguard : Along (step recorder) ResetFirst (started 1 [9]) lowered := by decide
  ⟨_, rfl, rfl, captured_complete 1 [9] hguard rfl rfl⟩

/-- The bandwidth is raised before the first buffer: no reset, and the sum of an earlier capture
is included. -/
theorem capture_stale :
    ∃ s, [.ready 0 10, .load, .store, .wait 1, .setBandwidth 1, .interrupt 12 2, .interrupt 13 3,
        .poll].foldlM (step recorder) (started 0 [9]) = some s ∧
      s.returned = some true ∧ s.accumulators = [9, 2, 3] ∧ ¬ Complete recorder s := by
  refine ⟨_, rfl, rfl, rfl, ?_⟩
  rintro ⟨buffers, b, hsince, -⟩
  cases hsince

end NanoVNA.Capture
