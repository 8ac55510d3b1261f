import NanoVNA.SweepSlices
import NanoVNA.SweepSnapshot

namespace NanoVNA.MeasurementPipeline

open NanoVNA.DeviceState NanoVNA.SweepPoint NanoVNA.SweepInvariant NanoVNA.SweepSteps
open NanoVNA.SweepMachine NanoVNA.SweepUninterrupted NanoVNA.GuardedRun
open NanoVNA.SweepSnapshot (Processing renormalize renormalizes)

variable {R : Type} [Field R] [LinearOrder R]

/-- `app_measurement_get_sweep_mask`; the channels of the measure module are among the two. -/
def appMeasurementGetSweepMask (calStatus : CalStatus)
    (portz calLoadR electricalDelayS11 electricalDelayS21 s21Offset : R) : SweepMask where
  ch0Measure := true
  ch1Measure := true
  applyEdelayS11 := electricalDelayS11 ≠ 0
  applyEdelayS21 := electricalDelayS21 ≠ 0
  applyS21Offset := s21Offset ≠ 0
  applyCalibration := calStatus.apply
  useInterpolation := calStatus.interpolated
  useRenormalization := portz ≠ calLoadR

structure Slice (R : Type) where
  breakOnOperation : Bool
  inputPending : Bool
  stack : Ctx R
  inputs : List Input

/-- The pipeline between two calls, with the times that a point was renormalised, the sweeps that
were reported complete and the last report. -/
structure Pipeline (R : Type) where
  machine : Machine R
  renormalized : Nat → Nat
  completed : Nat
  returned : Bool

/-- Calls of the pipeline, and what the rest of the firmware writes to the arrays of a completed
sweep. -/
inductive Event (R : Type)
  | execute (slice : Slice R)
  | handle (measured : Fin 2 → Nat → Sample R)

def started (m : Machine R) : Pipeline R where
  machine := m
  renormalized := fun _ => 0
  completed := 0
  returned := false

section Definitions

variable (cfg : Config R) (post : Processing R)

/-- A call of `app_measurement_sweep` from its start to its return. -/
def sweepCall (slice : Slice R) (m : Machine R) : Option (Machine R) :=
  ((.call slice.breakOnOperation slice.inputPending slice.stack ::
    slice.inputs.map .step).foldlM (step cfg) m).filter (·.running.isNone)

/-- `den > 1e-9f` -/
def divides (x : Sample R) : Prop :=
  let k := (post.portz - 50) / (post.portz + 50)
  1 / 10 ^ 9 < (1 - x.re * k) * (1 - x.re * k) + -x.im * k * (-x.im * k)

instance (x : Sample R) : Decidable (divides post x) :=
  inferInstanceAs (Decidable (_ < _))

def renormalizePoint (s : Pipeline R) (i : Nat) : Pipeline R :=
  let x := s.machine.measured 0 i
  if divides post x then
    { s with
      machine :=
        { s.machine with
          measured := Function.update s.machine.measured 0
            (Function.update (s.machine.measured 0) i (renormalize post x)) }
      renormalized := Function.update s.renormalized i (s.renormalized i + 1) }
  else s

def measurementPipelineExecute (slice : Slice R) (s : Pipeline R) : Option (Pipeline R) :=
  (sweepCall cfg slice s.machine).map fun m =>
    let res : Bool := m.outcome = some .completed
    let s :=
      { s with
        machine := m, returned := res, completed := if res then s.completed + 1 else s.completed }
    if res && renormalizes cfg post then (List.range (points cfg)).foldl (renormalizePoint post) s
    else s

def event (s : Pipeline R) : Event R → Option (Pipeline R)
  | .execute slice => measurementPipelineExecute cfg post slice s
  | .handle measured =>
    if s.returned then
      some { s with machine := { s.machine with measured := measured }, returned := false }
    else none

def correctedS11 (i : Nat) : Sample R := pointS11 cfg i ⟨0, 0⟩

def Changes (i : Nat) : Prop := renormalizes cfg post = true ∧ divides post (correctedS11 cfg i)

instance (i : Nat) : Decidable (Changes cfg post i) := inferInstanceAs (Decidable (_ ∧ _))

def settledS11 (i : Nat) : Sample R :=
  if Changes cfg post i then renormalize post (correctedS11 cfg i) else correctedS11 cfg i

end Definitions

variable {cfg : Config R} {post : Processing R}

section Loop

/-- What the loop has done when it comes to point `n`. -/
structure RenormalizedTo (post : Processing R) (s : Pipeline R) (n : Nat) (t : Pipeline R) :
    Prop where
  machine : t.machine = { s.machine with measured := t.machine.measured }
  completed : t.completed = s.completed
  returned : t.returned = s.returned
  stored : ∀ i, t.machine.measured 0 i =
    if i < n ∧ divides post (s.machine.measured 0 i) then renormalize post (s.machine.measured 0 i)
    else s.machine.measured 0 i
  counted : ∀ i, t.renormalized i =
    if i < n ∧ divides post (s.machine.measured 0 i) then s.renormalized i + 1 else s.renormalized i

theorem renormalizedTo_point {s t : Pipeline R} {n : Nat} (h : RenormalizedTo post s n t) :
    RenormalizedTo post s (n + 1) (renormalizePoint post t n) := by
  have hx : t.machine.measured 0 n = s.machine.measured 0 n := by simp [h.stored]
  have hsucc : ∀ i, i ≠ n → (i < n + 1 ↔ i < n) := fun i hi => by omega
  rw [renormalizePoint]
  dsimp only
  rw [hx]
  split
  · rename_i hdivides
    refine ⟨?_, h.completed, h.returned, fun i => ?_, fun i => ?_⟩
    · rw [h.machine]
    · by_cases hi : i = n
      · simp [hi, hdivides]
      · simp [hi, h.stored, hsucc i hi]
    · by_cases hi : i = n
      · simp [hi, hdivides, h.counted]
      · simp [hi, h.counted, hsucc i hi]
  · rename_i hdivides
    refine ⟨h.machine, h.completed, h.returned, fun i => ?_, fun i => ?_⟩
    · by_cases hi : i = n
      · simp [hi, hdivides, hx]
      · simp [h.stored, hsucc i hi]
    · by_cases hi : i = n
      · simp [hi, hdivides, h.counted]
      · simp [h.counted, hsucc i hi]

theorem renormalizedTo_loop (post : Processing R) (s : Pipeline R) (n : Nat) :
    RenormalizedTo post s n ((List.range n).foldl (renormalizePoint post) s) := by
  induction n with
  | zero => exact ⟨rfl, rfl, rfl, fun i => by simp, fun i => by simp⟩
  | succ n ih =>
    rw [List.range_succ, List.foldl_append]
    exact renormalizedTo_point ih

end Loop

section Calls

variable {m m' m₀ : Machine R} {slice : Slice R}

theorem inv_self (h : Inv cfg m₀ m) : Inv cfg m m :=
  ⟨h.bound, h.cells, h.fresh, fun _ _ _ => rfl, h.ctx, h.calling, h.completed, h.failed⟩

omit [LinearOrder R] in
/-- After all points a call begins as on a machine on which no sweep has begun. -/
theorem call_restart (hdone : points cfg ≤ m.pSweep) (breakOnOperation inputPending : Bool)
    (stack : Ctx R) :
    appMeasurementSweep cfg breakOnOperation inputPending stack m =
      appMeasurementSweep cfg breakOnOperation inputPending stack
        { sweepResetProgress m with outcome := none } := by
  have hreset : (points cfg ≤ m.pSweep || !breakOnOperation) = true := by simp [hdone]
  have hfresh : ∀ b : Bool,
      (if b then sweepResetProgress { sweepResetProgress m with outcome := none }
        else { sweepResetProgress m with outcome := none }) =
      { sweepResetProgress m with outcome := none } := by
    intro b
    cases b <;> rfl
  rw [appMeasurementSweep, appMeasurementSweep, if_pos hreset, hfresh]
  rfl

theorem call_self (hidle : m.running = none) (hknown : Inv cfg m m ∨ points cfg ≤ m.pSweep)
    (breakOnOperation inputPending : Bool) (stack : Ctx R) :
    ∃ m₀, Inv cfg m₀ (appMeasurementSweep cfg breakOnOperation inputPending stack m) := by
  obtain hinv | hdone := hknown
  · exact ⟨m, call_inv hinv hidle breakOnOperation inputPending stack⟩
  · rw [call_restart hdone]
    have hfresh : Fresh { sweepResetProgress m with outcome := none } :=
      ⟨rfl, hidle, rfl, fun _ _ => rfl⟩
    exact ⟨_, call_inv (inv_fresh hfresh) hidle breakOnOperation inputPending stack⟩

theorem sweepCall_inv (hidle : m.running = none) (hknown : Inv cfg m m ∨ points cfg ≤ m.pSweep)
    (h : sweepCall cfg slice m = some m') : Inv cfg m' m' ∧ m'.running = none := by
  obtain ⟨hrun, hnone⟩ := Option.filter_eq_some_iff.mp h
  rw [List.foldlM_cons, step, hidle] at hrun
  obtain ⟨m₀, hcall⟩ := call_self hidle hknown slice.breakOnOperation slice.inputPending slice.stack
  have hinv : Inv cfg m₀ m' := foldlM_invariant (fun _ _ _ h => step_inv h) hcall hrun
  exact ⟨inv_self hinv, Option.isNone_iff_eq_none.mp hnone⟩

theorem completed_s11 (hinv : Inv cfg m m) (hch0 : cfg.mask.ch0Measure = true)
    (hout : m.outcome = some .completed) {i : Nat} (hi : i < points cfg) :
    m.measured 0 i = correctedS11 cfg i := by
  have hdone := hinv.completed hout
  exact (hinv.cells 0 i ⟨hch0, Or.inl (hdone ▸ hi)⟩).2.trans
    (SweepSlices.pointS11_before hch0 i _ _)

end Calls

section Run

variable {s t : Pipeline R}

/-- Between two calls of the pipeline every point has been renormalised once for each completed
sweep if it changes at all, and after a completed sweep it has its settled value. -/
structure Between (cfg : Config R) (post : Processing R) (s : Pipeline R) : Prop where
  idle : s.machine.running = none
  known : Inv cfg s.machine s.machine ∨ points cfg ≤ s.machine.pSweep
  done : s.returned = true → points cfg ≤ s.machine.pSweep
  stored : s.returned = true → ∀ i < points cfg, s.machine.measured 0 i = settledS11 cfg post i
  counted : ∀ i < points cfg, s.renormalized i = if Changes cfg post i then s.completed else 0

theorem between_started {m : Machine R} (h : Fresh m) : Between cfg post (started m) :=
  ⟨h.running, Or.inl (inv_fresh h), nofun, nofun, fun i _ => by simp [started]⟩

theorem between_loop {m : Machine R} (h : Between cfg post s) (hidle : m.running = none)
    (hdone : points cfg ≤ m.pSweep)
    (hs11 : ∀ i < points cfg, m.measured 0 i = correctedS11 cfg i)
    (hrenorm : renormalizes cfg post = true) :
    Between cfg post ((List.range (points cfg)).foldl (renormalizePoint post)
      { s with machine := m, returned := true, completed := s.completed + 1 }) := by
  have hloop := renormalizedTo_loop post
    { s with machine := m, returned := true, completed := s.completed + 1 } (points cfg)
  have hrunning := congrArg Machine.running hloop.machine
  have hpSweep := congrArg Machine.pSweep hloop.machine
  have hpast := hdone.trans_eq hpSweep.symm
  refine ⟨hrunning.trans hidle, Or.inr hpast, fun _ => hpast, fun _ i hi => ?_, fun i hi => ?_⟩
  · rw [hloop.stored]
    simp only [hs11 i hi, hi, true_and, settledS11, Changes, hrenorm]
  · rw [hloop.counted, hloop.completed]
    simp only [hs11 i hi, hi, true_and, h.counted i hi, Changes, hrenorm]
    split <;> rfl

theorem between_execute (hch0 : cfg.mask.ch0Measure = true) (h : Between cfg post s)
    {slice : Slice R} (ht : measurementPipelineExecute cfg post slice s = some t) :
    Between cfg post t := by
  obtain ⟨m, hm, rfl⟩ := Option.map_eq_some_iff.mp ht
  obtain ⟨hinv, hidle⟩ := sweepCall_inv h.idle h.known hm
  by_cases hout : m.outcome = some .completed
  · have hdone : points cfg ≤ m.pSweep := Nat.le_of_eq (hinv.completed hout).symm
    have hs11 : ∀ i < points cfg, m.measured 0 i = correctedS11 cfg i :=
      fun i hi => completed_s11 hinv hch0 hout hi
    simp only [hout, decide_true, Bool.true_and, if_true]
    split
    · rename_i hrenorm
      exact between_loop h hidle hdone hs11 hrenorm
    · rename_i hrenorm
      refine ⟨hidle, Or.inl hinv, fun _ => hdone, fun _ i hi => ?_, fun i hi => ?_⟩
      · exact (hs11 i hi).trans (if_neg fun hchange => hrenorm hchange.1).symm
      · have hsame : ¬ Changes cfg post i := fun hchange => hrenorm hchange.1
        rw [if_neg hsame]
        exact (h.counted i hi).trans (if_neg hsame)
  · simp only [hout, decide_false, Bool.false_and, Bool.false_eq_true, if_false]
    exact ⟨hidle, Or.inl hinv, nofun, nofun, h.counted⟩

theorem between_event (hch0 : cfg.mask.ch0Measure = true) (h : Between cfg post s)
    {e : Event R} (ht : event cfg post s e = some t) : Between cfg post t := by
  cases e with
  | execute slice => exact between_execute hch0 h ht
  | handle measured =>
    simp only [event] at ht
    split at ht
    · rename_i hreturned
      obtain rfl := Option.some.inj ht
      exact ⟨h.idle, Or.inr (h.done hreturned), nofun, nofun, h.counted⟩
    · cases ht

theorem between_run (hch0 : cfg.mask.ch0Measure = true) {m₀ : Machine R} (hfresh : Fresh m₀)
    {events : List (Event R)} (hrun : events.foldlM (event cfg post) (started m₀) = some s) :
    Between cfg post s :=
  foldlM_invariant (fun _ _ _ h => between_event hch0 h) (between_started hfresh) hrun

theorem execute_completes (post : Processing R) (hpoints : points cfg ≤ sweepPointsMax cfg.board)
    {m₀ : Machine R} (hfresh : Fresh m₀) : ∃ slice s,
      [Event.execute slice].foldlM (event cfg post) (started m₀) = some s ∧ s.returned = true ∧
        s.completed = 1 := by
  let stack : Ctx R := ⟨.idle, false, 0, 0, 0, none, 0, 0, 0, 0, ⟨⟨0, 0⟩, ⟨0, 0⟩⟩⟩
  obtain ⟨inputs, m, hm, hidle, hout⟩ :=
    uninterrupted_completes hpoints (inv_fresh hfresh) hfresh.running false stack
  let slice : Slice R := ⟨false, false, stack, inputs⟩
  have hcall : sweepCall cfg slice m₀ = some m :=
    Option.filter_eq_some_iff.mpr ⟨hm, Option.isNone_iff_eq_none.mpr hidle⟩
  obtain ⟨s, hs, hreport⟩ : ∃ s, measurementPipelineExecute cfg post slice (started m₀) = some s ∧
      s.returned = true ∧ s.completed = 1 := by
    refine ⟨_, Option.map_eq_some_iff.mpr ⟨m, hcall, rfl⟩, ?_⟩
    simp only [hout, decide_true, Bool.true_and, if_true]
    split
    · have hloop := renormalizedTo_loop post
        { started m₀ with machine := m, returned := true, completed := 1 } (points cfg)
      exact ⟨hloop.returned, hloop.completed⟩
    · exact ⟨rfl, rfl⟩
  refine ⟨slice, s, ?_, hreport⟩
  rw [List.foldlM_cons, event, hs]
  rfl

end Run

end NanoVNA.MeasurementPipeline
