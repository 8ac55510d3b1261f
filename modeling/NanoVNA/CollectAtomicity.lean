import NanoVNA.CalibrationCollect
import NanoVNA.SweepTimeouts
import NanoVNA.ChannelIsolation

namespace NanoVNA.CollectAtomicity

open NanoVNA.DeviceState NanoVNA.SweepGrid NanoVNA.Calibration NanoVNA.CalibrationCollect
open NanoVNA.SweepPoint
open NanoVNA.SweepMachine NanoVNA.SweepUninterrupted NanoVNA.SweepTimeouts NanoVNA.GuardedRun
open NanoVNA.ChannelIsolation

variable {R : Type}

/-- `BANDWIDTH_100`, for 48 and for 96 samples at 192 kHz. -/
def bandwidth100 : Board → Nat
  | .f072 => 39
  | .f303 => 19

/-- What the collection of a standard works on: the settings and the calibration, the stored
bandwidth and the sweep. -/
structure Collector (R : Type) where
  cfg : Config R
  bandwidth : Nat
  machine : Machine R

def Collector.calData (s : Collector R) : Nat → Point R := s.cfg.props.calData

def Collector.calStatus (s : Collector R) : CalStatus := s.cfg.props.calStatus

def Collector.withCalibration (s : Collector R) (status : CalStatus) (data : Nat → Point R) :
    Collector R :=
  { s with
    cfg := { s.cfg with props := { s.cfg.props with calStatus := status, calData := data } } }

def held (st : CalStatus) : Standard → Bool
  | .load => st.load
  | .open_ => st.open_
  | .short => st.short
  | .thru => st.thru
  | .isoln => st.isoln

def collectMask (std : Standard) : SweepMask :=
  { SweepMask.zero with ch0Measure := std.src = 0, ch1Measure := std.src = 1 }

/-- `cal_collect` up to its sweep. The local that keeps the bandwidth has eight bits. -/
def prepareCollect (std : Standard) (s : Collector R) : Collector R :=
  let p := renewGrid s.cfg.props
  { s with
    cfg :=
      { s.cfg with
        mask := collectMask std
        props :=
          { p with
            calPower := p.power, calStatus := setFlag (clrFlag p.calStatus std) std } }
    bandwidth :=
      if s.bandwidth % 256 < bandwidth100 s.cfg.board then bandwidth100 s.cfg.board
      else s.bandwidth }

/-- `cal_collect` after its sweep, which copies the whole row of the channel. -/
def finishCollect (std : Standard) (bw : Nat) (s : Collector R) : Collector R :=
  { s with
    cfg :=
      { s.cfg with
        props :=
          { s.cfg.props with
            calData := fun i =>
              if i < sweepPointsMax s.cfg.board then
                Function.update (s.calData i) std.cell (s.machine.measured std.src i)
              else s.calData i } }
    bandwidth := bw }

variable [Field R] [LinearOrder R]

/-- A collection whose sweep takes the given steps, together with what the sweep returns, which
the source does not look at. -/
def calCollect (std : Standard) (inputPending : Bool) (stack : Ctx R) (inputs : List Input)
    (s : Collector R) : Option (Outcome × Collector R) :=
  let started := prepareCollect std s
  ((uninterrupted inputPending stack inputs).foldlM (step started.cfg) s.machine).bind fun m =>
    if m.running.isNone then
      m.outcome.map fun outcome =>
        (outcome, finishCollect std (s.bandwidth % 256) { started with machine := m })
    else none

/-- Whatever calibration is in memory, a sweep that is not completed leaves it without the standard
that was to be collected, and the bandwidth is the one before. -/
def Atomic (std : Standard) (inputPending : Bool) (stack : Ctx R) (inputs : List Input)
    (s : Collector R) : Prop :=
  ∀ status data outcome s',
    calCollect std inputPending stack inputs (s.withCalibration status data) = some (outcome, s') →
    (outcome ≠ .completed →
      s'.calData = data ∧ (held s'.calStatus std = true → held status std = true)) ∧
    s'.bandwidth = s.bandwidth

def CapturesInTime (std : Standard) (inputPending : Bool) (stack : Ctx R) (inputs : List Input)
    (s : Collector R) : Prop :=
  Along (runStep (prepareCollect std s).cfg) InTime
    (appMeasurementSweep (prepareCollect std s).cfg false inputPending stack s.machine) inputs

section Raw

def recalibrated (cfg : Config R) (status : CalStatus) (data : Nat → Point R) : Config R :=
  { cfg with props := { cfg.props with calStatus := status, calData := data } }

variable {cfg : Config R} {status : CalStatus} {data : Nat → Point R}

omit [LinearOrder R] in
theorem processCh1_recalibrated (h : cfg.mask.applyCalibration = false) :
    processCh1 (recalibrated cfg status data) = processCh1 cfg := by
  funext frequency c offset buffer
  simp only [processCh1, recalibrated, h, Bool.false_eq_true, if_false]
  rfl

omit [LinearOrder R] in
theorem fsmSetupMeasure_recalibrated (h : cfg.mask.applyCalibration = false) :
    fsmSetupMeasure (recalibrated cfg status data) = fsmSetupMeasure cfg := by
  have hstart : startMeasure (recalibrated cfg status data) = startMeasure cfg := by
    funext ctx m
    simp only [startMeasure, recalibrated, h, Bool.and_false, Bool.false_eq_true, if_false]
  funext ctx m
  unfold fsmSetupMeasure
  rw [hstart]
  rfl

theorem fsmProcess_recalibrated (h : cfg.mask.applyCalibration = false) :
    fsmProcess (recalibrated cfg status data) = fsmProcess cfg := by
  funext ctx m
  unfold fsmProcess processChannel
  rw [processCh1_recalibrated h]
  rfl

theorem step_recalibrated (h : cfg.mask.applyCalibration = false) :
    step (recalibrated cfg status data) = step cfg := by
  funext m action
  cases action with
  | call breakOnOperation inputPending stack => rfl
  | step input =>
    unfold step fsmStep
    rw [fsmSetupMeasure_recalibrated h, fsmProcess_recalibrated h]
    rfl

variable (status data)

omit [Field R] [LinearOrder R] in
theorem renewGrid_recalibrated (p : Properties R) :
    ∃ st, renewGrid { p with calStatus := status, calData := data } =
      { renewGrid p with calStatus := st, calData := data } := by
  have hrange : sweepGetOrdered { p with calStatus := status, calData := data } =
      sweepGetOrdered p := rfl
  have hsame : needInterpolate { p with calStatus := status, calData := data }
      (sweepGetOrdered p).1 (sweepGetOrdered p).2 p.sweepPoints =
        needInterpolate p (sweepGetOrdered p).1 (sweepGetOrdered p).2 p.sweepPoints := rfl
  simp only [renewGrid, hrange, hsame]
  split
  · exact ⟨.zero, rfl⟩
  · exact ⟨status, rfl⟩

omit [Field R] [LinearOrder R] in
theorem prepareCollect_recalibrated (std : Standard) (s : Collector R) :
    ∃ st, (prepareCollect std (s.withCalibration status data)).cfg =
      recalibrated (prepareCollect std s).cfg st data := by
  obtain ⟨st, hst⟩ := renewGrid_recalibrated status data s.cfg.props
  unfold prepareCollect Collector.withCalibration
  dsimp only
  rw [hst]
  exact ⟨_, rfl⟩

theorem step_withCalibration (std : Standard) (s : Collector R) :
    step (prepareCollect std (s.withCalibration status data)).cfg =
      step (prepareCollect std s).cfg := by
  obtain ⟨st, hst⟩ := prepareCollect_recalibrated status data std s
  rw [hst]
  exact step_recalibrated rfl

end Raw

section Runs

variable {std : Standard} {inputPending : Bool} {stack : Ctx R} {inputs : List Input}
variable {s s' : Collector R} {outcome : Outcome}

theorem calCollect_eq_some :
    calCollect std inputPending stack inputs s = some (outcome, s') ↔
      ∃ m, (uninterrupted inputPending stack inputs).foldlM (step (prepareCollect std s).cfg)
          s.machine = some m ∧
        m.running = none ∧ m.outcome = some outcome ∧
        s' = finishCollect std (s.bandwidth % 256) { prepareCollect std s with machine := m } := by
  unfold calCollect
  rw [Option.bind_eq_some_iff]
  refine exists_congr fun m => and_congr_right fun _ => ?_
  cases hrun : m.running with
  | some ctx => simp
  | none =>
    simp only [Option.isNone_none, if_true, Option.map_eq_some_iff, Prod.mk.injEq, true_and]
    constructor
    · rintro ⟨_, hm, rfl, rfl⟩
      exact ⟨hm, rfl⟩
    · rintro ⟨hm, rfl⟩
      exact ⟨_, hm, rfl, rfl⟩

theorem calCollect_bandwidth (h : calCollect std inputPending stack inputs s = some (outcome, s')) :
    s'.bandwidth = s.bandwidth % 256 := by
  obtain ⟨m, -, -, -, rfl⟩ := calCollect_eq_some.mp h
  rfl

theorem running_of_uninterrupted {cfg : Config R} {m u : Machine R}
    (h : (uninterrupted inputPending stack inputs).foldlM (step cfg) m = some u) :
    m.running = none := by
  rw [uninterrupted, List.foldlM_cons] at h
  obtain ⟨t, ht, -⟩ := Option.bind_eq_some_iff.mp h
  cases hrun : m.running with
  | none => rfl
  | some ctx => simp [step, hrun] at ht

theorem calCollect_completed (hpoints : s.cfg.props.sweepPoints < 65536)
    (h : calCollect std inputPending stack inputs s = some (outcome, s')) :
    outcome = .completed ↔ CapturesInTime std inputPending stack inputs s := by
  obtain ⟨m, hm, hend, houtcome, -⟩ := calCollect_eq_some.mp h
  have hcount : points (prepareCollect std s).cfg < 65536 := by
    rw [show points (prepareCollect std s).cfg = (renewGrid s.cfg.props).sweepPoints from rfl,
      renewGrid_sweepPoints]
    exact hpoints
  rw [uninterrupted_run inputPending stack inputs (running_of_uninterrupted hm)] at hm
  have hiff := completed_iff hcount (going_call inputPending stack) hm hend
  rw [houtcome, Option.some.injEq] at hiff
  exact hiff

theorem calCollect_withCalibration (status : CalStatus) (data : Nat → Point R)
    (h : calCollect std inputPending stack inputs s = some (outcome, s')) :
    ∃ t, calCollect std inputPending stack inputs (s.withCalibration status data) =
      some (outcome, t) := by
  obtain ⟨m, hm, hend, houtcome, -⟩ := calCollect_eq_some.mp h
  rw [← step_withCalibration status data std s] at hm
  exact ⟨_, calCollect_eq_some.mpr ⟨m, hm, hend, houtcome, rfl⟩⟩

theorem held_setFlag (st : CalStatus) (std : Standard) : held (setFlag st std) std = true := by
  cases std <;> rfl

theorem held_calCollect (h : calCollect std inputPending stack inputs s = some (outcome, s')) :
    held s'.calStatus std = true := by
  obtain ⟨m, -, -, -, rfl⟩ := calCollect_eq_some.mp h
  exact held_setFlag _ std

theorem calCollect_collectStandard
    (h : calCollect std inputPending stack inputs s = some (outcome, s')) :
    s'.calStatus = (collectStandard std s'.machine.measured s.cfg.props).calStatus ∧
      ∀ i, s'.calData i =
        if i < sweepPointsMax s.cfg.board then
          (collectStandard std s'.machine.measured s.cfg.props).calData i
        else s.calData i := by
  obtain ⟨m, -, -, -, rfl⟩ := calCollect_eq_some.mp h
  refine ⟨rfl, fun i => ?_⟩
  have hdata : (prepareCollect std s).calData = s.calData := renewGrid_calData s.cfg.props
  rw [collectStandard_calData]
  change (if i < sweepPointsMax s.cfg.board then
    Function.update ((prepareCollect std s).calData i) std.cell (m.measured std.src i)
    else (prepareCollect std s).calData i) = _
  rw [hdata]
  rfl

end Runs

/-- A collection is atomic exactly when no capture of its sweep times out and the bandwidth fits
eight bits: it copies the row and sets the bit of the standard whatever the sweep returns. -/
theorem collect_atomic_iff (std : Standard) (inputPending : Bool) (stack : Ctx R)
    (inputs : List Input) (s : Collector R) (hpoints : s.cfg.props.sweepPoints < 65536)
    (hends : (calCollect std inputPending stack inputs s).isSome = true) :
    Atomic std inputPending stack inputs s ↔
      s.bandwidth < 256 ∧ CapturesInTime std inputPending stack inputs s := by
  obtain ⟨⟨outcome, s'⟩, hrun⟩ := Option.isSome_iff_exists.mp hends
  rw [← calCollect_completed hpoints hrun]
  constructor
  · intro hatomic
    obtain ⟨t, ht⟩ := calCollect_withCalibration .zero s.calData hrun
    obtain ⟨hfailed, hbandwidth⟩ := hatomic _ _ _ _ ht
    refine ⟨?_, ?_⟩
    · have hrestored : s.bandwidth % 256 = s.bandwidth :=
        (calCollect_bandwidth ht).symm.trans hbandwidth
      omega
    · by_contra hne
      have hgained := (hfailed hne).2 (held_calCollect ht)
      cases std <;> exact nomatch hgained
  · rintro ⟨hlt, rfl⟩ status data outcome t ht
    obtain ⟨u, hu⟩ := calCollect_withCalibration status data hrun
    obtain ⟨rfl, rfl⟩ := Prod.mk.inj (Option.some.inj (hu.symm.trans ht))
    refine ⟨fun hne => absurd rfl hne, ?_⟩
    rw [calCollect_bandwidth ht]
    exact Nat.mod_eq_of_lt hlt

def calibrated : Collector ℚ := ⟨calibratedSweep true true 0, 300, cleared⟩

def timedOut : List Input := [quiet, quiet, { quiet with captured := false }, quiet]

theorem collect_atomic_iff_timedOut :
    Atomic .open_ false (stackWith ⟨0, 0⟩) timedOut calibrated ↔
      calibrated.bandwidth < 256 ∧
        CapturesInTime .open_ false (stackWith ⟨0, 0⟩) timedOut calibrated :=
  collect_atomic_iff .open_ false (stackWith ⟨0, 0⟩) timedOut calibrated (by decide)
    (by decide +kernel)

/-- The capture of the open standard times out at its first point: the sweep returns false, the
row of the open standard is overwritten, its bit is set, and the bandwidth 300 comes back as 44. -/
theorem collect_not_atomic :
    (calCollect .open_ false (stackWith ⟨0, 0⟩) timedOut calibrated).map (fun r =>
        (r.1, r.2.calData 0 Standard.open_.cell, r.2.calStatus.open_, r.2.bandwidth)) =
        some (.failed, ⟨0, 0⟩, true, 44) ∧
      calibrated.calData 0 Standard.open_.cell = ⟨1 / 2, 0⟩ ∧
      calibrated.calStatus.open_ = false ∧ calibrated.bandwidth = 300 ∧
      ¬ Atomic .open_ false (stackWith ⟨0, 0⟩) timedOut calibrated := by
  have hrun : (calCollect .open_ false (stackWith ⟨0, 0⟩) timedOut calibrated).map (fun r =>
      (r.1, r.2.calData 0 Standard.open_.cell, r.2.calStatus.open_, r.2.bandwidth)) =
        some (.failed, ⟨0, 0⟩, true, 44) := by
    decide +kernel
  refine ⟨hrun, rfl, rfl, rfl, fun hatomic => ?_⟩
  obtain ⟨⟨outcome, s'⟩, hcollect, hvalues⟩ := Option.map_eq_some_iff.mp hrun
  simp only [Prod.mk.injEq] at hvalues
  have hrestored := (hatomic calibrated.calStatus calibrated.calData outcome s' hcollect).2
  exact absurd (hvalues.2.2.2.symm.trans hrestored) (by decide)

end NanoVNA.CollectAtomicity
