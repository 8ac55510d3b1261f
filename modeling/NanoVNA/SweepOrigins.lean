import NanoVNA.SweepSteps

namespace NanoVNA.SweepOrigins

open NanoVNA.DeviceState NanoVNA.SweepPoint NanoVNA.SweepMachine NanoVNA.SweepInvariant
open NanoVNA.SweepSteps

variable {R : Type}

/-- A sweep with a record of where the arrays come from: the number of the sweep, the sweep that
wrote each point last, the sweeps that were completed, and whether nothing was written since the
last one was. -/
structure Traced (R : Type) where
  machine : Machine R
  sweep : Nat
  writer : Fin 2 → Nat → Nat
  finished : List Nat
  intact : Bool

def untraced (m : Machine R) : Traced R := ⟨m, 0, fun _ _ => 0, [], false⟩

variable [Field R] [LinearOrder R] (cfg : Config R)

def Wrote (m m' : Machine R) : Prop :=
  ∃ ch, ∃ i < points cfg, m.writes ch i < m'.writes ch i

omit [LinearOrder R] in
instance (m m' : Machine R) : Decidable (Wrote cfg m m') := by
  unfold Wrote
  infer_instance

/-- A sweep begins with each call that has all points to do. -/
def record (action : Action R) (m' : Machine R) (s : Traced R) : Traced R where
  machine := m'
  sweep :=
    match action with
    | .call .. => if m'.pSweep = 0 then s.sweep + 1 else s.sweep
    | .step _ => s.sweep
  writer := fun ch i => if s.machine.writes ch i < m'.writes ch i then s.sweep else s.writer ch i
  finished := if m'.outcome = some .completed then s.sweep :: s.finished else s.finished
  intact := m'.outcome = some .completed || s.intact && !decide (Wrote cfg s.machine m')

def tracedStep (s : Traced R) (action : Action R) : Option (Traced R) :=
  (step cfg s.machine action).map fun m' => record cfg action m' s

def OneSweep (s : Traced R) (ch : Fin 2) : Prop :=
  ∃ k ∈ s.finished, ∀ i < points cfg, s.writer ch i = k

/-- The arrays may hold anything else than what the sweep wrote: what is done to them afterwards
is not seen by it. -/
structure Inv (m₀ : Machine R) (s : Traced R) : Prop where
  machine : ∃ raw, SweepInvariant.Inv cfg m₀ { s.machine with measured := raw }
  writer : ∀ ch i, 0 < s.machine.writes ch i → s.writer ch i = s.sweep
  intact : s.intact = true → ∀ ch, cfg.mask.requests ch = true → OneSweep cfg s ch

variable {cfg} {m₀ m m' : Machine R} {s t : Traced R} {ctx : Ctx R}

theorem inv_untraced (h : Fresh m) : Inv cfg m (untraced m) where
  machine := ⟨m.measured, inv_fresh h⟩
  writer := fun ch i hpos => absurd (h.writes ch i) (Nat.ne_of_gt hpos)
  intact := fun hintact => nomatch hintact

theorem fsmStep_measured (input : Input) (raw : Fin 2 → Nat → Sample R) :
    ∃ raw', fsmStep cfg input ctx { m with measured := raw } =
      { fsmStep cfg input ctx m with measured := raw' } := by
  unfold fsmStep
  cases ctx.state with
  | idle => exact ⟨raw, rfl⟩
  | setupFreq =>
    refine ⟨raw, ?_⟩
    simp only [setupFreq]
    split
    · rfl
    · split <;> rfl
  | setupMeasure =>
    refine ⟨raw, ?_⟩
    simp only [fsmSetupMeasure]
    split
    · rfl
    · split
      · rfl
      · split <;> rfl
  | waitCapture =>
    refine ⟨raw, ?_⟩
    dsimp only
    split <;> rfl
  | process =>
    simp only [fsmProcess]
    split
    · exact ⟨_, rfl⟩
    · exact ⟨raw, rfl⟩
  | nextStep => exact ⟨raw, rfl⟩
  | fault => exact ⟨raw, rfl⟩

omit [LinearOrder R] in
theorem call_measured (breakOnOperation inputPending : Bool) (stack : Ctx R)
    (raw : Fin 2 → Nat → Sample R) :
    appMeasurementSweep cfg breakOnOperation inputPending stack { m with measured := raw } =
      { appMeasurementSweep cfg breakOnOperation inputPending stack m with measured := raw } := by
  unfold appMeasurementSweep
  dsimp only
  split
  · split <;> rfl
  · split <;> rfl

theorem step_call (hrun : m.running = none) (breakOnOperation inputPending : Bool) (stack : Ctx R) :
    step cfg m (.call breakOnOperation inputPending stack) =
      some (appMeasurementSweep cfg breakOnOperation inputPending stack m) := by
  simp only [step, hrun]

theorem step_fsm (hrun : m.running = some ctx) (input : Input) :
    step cfg m (.step input) = some (fsmStep cfg input ctx m) := by
  simp only [step, hrun]

theorem step_measured {action : Action R} (h : step cfg m action = some m')
    (raw : Fin 2 → Nat → Sample R) :
    ∃ raw', step cfg { m with measured := raw } action = some { m' with measured := raw' } := by
  cases action with
  | call breakOnOperation inputPending stack =>
    obtain hrun | ⟨ctx, hrun⟩ := Option.eq_none_or_eq_some m.running
    · rw [step_call hrun] at h
      cases h
      have hcall := @step_call R _ _ cfg { m with measured := raw } hrun breakOnOperation
        inputPending stack
      rw [call_measured] at hcall
      exact ⟨raw, hcall⟩
    · simp [step, hrun] at h
  | step input =>
    obtain hrun | ⟨ctx, hrun⟩ := Option.eq_none_or_eq_some m.running
    · simp [step, hrun] at h
    · rw [step_fsm hrun] at h
      cases h
      obtain ⟨raw', hraw⟩ := @fsmStep_measured R _ _ cfg m ctx input raw
      have hfsm := @step_fsm R _ _ cfg { m with measured := raw } ctx hrun input
      exact ⟨raw', hfsm.trans (congrArg some hraw)⟩

theorem call_writes (h : SweepInvariant.Inv cfg m₀ m) (hrun : m.running = none)
    (breakOnOperation inputPending : Bool) (stack : Ctx R) (ch : Fin 2) (i : Nat) :
    let m' := appMeasurementSweep cfg breakOnOperation inputPending stack m
    m'.writes ch i ≤ m.writes ch i ∧ (m'.pSweep = 0 → m'.writes ch i = 0) := by
  have hfresh : m.pSweep = 0 → m.writes ch i = 0 := by
    intro hzero
    refine h.fresh ch i fun hw => ?_
    rw [hrun, written_none, hzero] at hw
    exact Nat.not_lt_zero i hw.2
  unfold appMeasurementSweep
  dsimp only
  split
  · exact ⟨Nat.zero_le _, fun _ => rfl⟩
  · split
    · exact ⟨Nat.zero_le _, fun _ => rfl⟩
    · exact ⟨Nat.le_refl _, hfresh⟩

omit [LinearOrder R] in
theorem call_not_completed (breakOnOperation inputPending : Bool) (stack : Ctx R) :
    (appMeasurementSweep cfg breakOnOperation inputPending stack m).outcome ≠ some .completed := by
  unfold appMeasurementSweep
  dsimp only
  split
  · exact fun h => nomatch h
  · exact fun h => nomatch h

theorem record_writer (h : Inv cfg m₀ s) {action : Action R} {ch : Fin 2} {i : Nat}
    (hsweep : (record cfg action m' s).sweep = s.sweep) (hpos : 0 < m'.writes ch i) :
    (record cfg action m' s).writer ch i = (record cfg action m' s).sweep := by
  rw [hsweep]
  by_cases hmore : s.machine.writes ch i < m'.writes ch i
  · exact if_pos hmore
  · exact (if_neg hmore).trans (h.writer ch i (Nat.lt_of_lt_of_le hpos (Nat.le_of_not_lt hmore)))

theorem record_intact (h : Inv cfg m₀ s) {action : Action R} (hout : m'.outcome ≠ some .completed)
    (hintact : (record cfg action m' s).intact = true) {ch : Fin 2}
    (hch : cfg.mask.requests ch = true) : OneSweep cfg (record cfg action m' s) ch := by
  simp only [record, hout, decide_false, Bool.false_or, Bool.and_eq_true, Bool.not_eq_true',
    decide_eq_false_iff_not] at hintact
  obtain ⟨hbefore, hwrote⟩ := hintact
  obtain ⟨k, hk, hwriter⟩ := h.intact hbefore ch hch
  refine ⟨k, ?_, fun i hi => ?_⟩
  · simpa only [record, hout, if_false] using hk
  · have hsame : ¬ s.machine.writes ch i < m'.writes ch i := fun hmore => hwrote ⟨ch, i, hi, hmore⟩
    exact (if_neg hsame).trans (hwriter i hi)

theorem record_completed (h : Inv cfg m₀ s) {input : Input} {raw : Fin 2 → Nat → Sample R}
    (hraw : SweepInvariant.Inv cfg m₀ { m' with measured := raw })
    (hout : m'.outcome = some .completed) {ch : Fin 2} (hch : cfg.mask.requests ch = true) :
    OneSweep cfg (record cfg (.step input) m' s) ch := by
  have hdone : m'.pSweep = points cfg := hraw.completed hout
  refine ⟨s.sweep, ?_, fun i hi => ?_⟩
  · simp only [record, hout, if_true]
    exact List.mem_cons_self
  · have hwrites : m'.writes ch i = 1 := (hraw.cells ch i ⟨hch, Or.inl (hdone ▸ hi)⟩).1
    exact record_writer h rfl (hwrites ▸ Nat.one_pos)

theorem call_inv (h : Inv cfg m₀ s) (hrun : s.machine.running = none)
    (breakOnOperation inputPending : Bool) (stack : Ctx R) :
    Inv cfg m₀ (record cfg (.call breakOnOperation inputPending stack)
      (appMeasurementSweep cfg breakOnOperation inputPending stack s.machine) s) := by
  obtain ⟨raw, hraw⟩ := h.machine
  have hwrites := fun ch i => call_writes hraw hrun breakOnOperation inputPending stack ch i
  rw [call_measured] at hwrites
  refine ⟨⟨raw, ?_⟩, fun ch i hpos => ?_, fun hintact ch hch => ?_⟩
  · have hcall := SweepSteps.call_inv hraw hrun breakOnOperation inputPending stack
    rwa [call_measured] at hcall
  · refine record_writer h (if_neg fun hzero => ?_) hpos
    exact absurd ((hwrites ch i).2 hzero) (Nat.ne_of_gt hpos)
  · exact record_intact h (call_not_completed breakOnOperation inputPending stack) hintact hch

theorem tracedStep_inv {action : Action R} (h : Inv cfg m₀ s)
    (hstep : tracedStep cfg s action = some t) : Inv cfg m₀ t := by
  obtain ⟨m', hm, rfl⟩ := Option.map_eq_some_iff.mp hstep
  cases action with
  | call breakOnOperation inputPending stack =>
    simp only [step] at hm
    split at hm <;> cases hm
    exact call_inv h ‹_› breakOnOperation inputPending stack
  | step input =>
    obtain ⟨raw, hraw⟩ := h.machine
    obtain ⟨raw', hm'⟩ := step_measured hm raw
    have hraw' := step_inv hraw hm'
    refine ⟨⟨raw', hraw'⟩, fun ch i hpos => record_writer h rfl hpos, fun hintact ch hch => ?_⟩
    by_cases hout : m'.outcome = some .completed
    · exact record_completed h hraw' hout hch
    · exact record_intact h hout hintact hch

theorem inv_process (h : Inv cfg m₀ s) (measured : Fin 2 → Nat → Sample R) :
    Inv cfg m₀ { s with machine := { s.machine with measured := measured } } :=
  ⟨h.machine, h.writer, h.intact⟩

end NanoVNA.SweepOrigins
