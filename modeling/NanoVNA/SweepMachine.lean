import NanoVNA.GuardedRun
import NanoVNA.SweepPoint

namespace NanoVNA.SweepMachine

open NanoVNA.DeviceState NanoVNA.SweepGrid NanoVNA.Calibration NanoVNA.SweepPoint

variable {R : Type}

inductive RfState
  | idle
  | setupFreq
  | setupMeasure
  | waitCapture
  | process
  | nextStep
  | fault
  deriving DecidableEq, Repr

/-- `rf_fsm_context_t`, the locals of one call. The index is `none` where the source has −1. -/
structure Ctx (R : Type) where
  state : RfState
  breakOnOperation : Bool
  batchBudget : Nat
  processed : Nat
  frequency : Nat
  interpolationIdx : Option Nat
  totalCycles : Nat
  currentCycle : Nat
  channelIndex : Nat
  offset : R
  sweepData : Data R
  deriving DecidableEq, Repr

/-- How a call ends: with all points done, with some left, or by the failure exit. Only the
first one returns true. -/
inductive Outcome
  | completed
  | paused
  | failed
  deriving DecidableEq, Repr

/-- The static state of the sweep and the call in progress. `writes` counts the writes of a
point since the progress was last reset, and `entries` keeps the reflection half of the buffer
as it was when the point began. -/
structure Machine (R : Type) where
  pSweep : Nat
  measured : Fin 2 → Nat → Sample R
  sweepCalData : Point R
  running : Option (Ctx R)
  outcome : Option Outcome
  writes : Fin 2 → Nat → Nat
  entries : Nat → Sample R

/-- What one step may find: an operation request, the end of the time slice, a band change of
the generator, and whether the capture finishes in time. -/
structure Input where
  inputPending : Bool
  timesliceExpired : Bool
  bandChanged : Bool
  captured : Bool
  deriving DecidableEq, Repr

/-- A call starts on a stack with any contents, or the call in progress takes a step. -/
inductive Action (R : Type)
  | call (breakOnOperation inputPending : Bool) (stack : Ctx R)
  | step (input : Input)

def sweepPointsBudget (board : Board) (breakOnOperation inputPending : Bool) : Nat :=
  if !breakOnOperation then 65535 else if inputPending then 1 else sweepPointsMax board

def sweepResetProgress (m : Machine R) : Machine R :=
  { m with pSweep := 0, writes := fun _ _ => 0 }

def exitFailure (m : Machine R) : Machine R :=
  { sweepResetProgress m with running := none, outcome := some .failed }

section Call

variable [Field R] (cfg : Config R)

def points : Nat := cfg.props.sweepPoints

def exitLoop (m : Machine R) : Machine R :=
  { m with running := none
           outcome := some (if points cfg ≤ m.pSweep then .completed else .paused) }

/-- `app_measurement_sweep` up to its loop. What the source does not initialise comes from the
stack. -/
def appMeasurementSweep (breakOnOperation inputPending : Bool) (stack : Ctx R) (m : Machine R) :
    Machine R :=
  let m :=
    if points cfg ≤ m.pSweep || !breakOnOperation then sweepResetProgress m else m
  if breakOnOperation && cfg.mask = .zero then exitFailure m
  else
    { m with
      outcome := none
      running := some
        { stack with
          state := .setupFreq
          breakOnOperation := breakOnOperation
          batchBudget := sweepPointsBudget cfg.board breakOnOperation inputPending
          processed := 0
          channelIndex := 0
          offset := sweepOffset cfg } }

def fsmSetupFreq (input : Input) (ctx : Ctx R) (m : Machine R) : Machine R :=
  let measures := cfg.mask.ch0Measure || cfg.mask.ch1Measure
  { m with
    entries := Function.update m.entries m.pSweep ctx.sweepData.s11
    running := some
      { ctx with
        frequency := getFrequency cfg.grid m.pSweep
        interpolationIdx := if measures then pointIndex cfg m.pSweep else ctx.interpolationIdx
        totalCycles := (if measures && input.bandChanged then 1 else 0) + 1
        currentCycle := 0
        state := .setupMeasure } }

def setupFreq (input : Input) (ctx : Ctx R) (m : Machine R) : Machine R :=
  if ctx.batchBudget ≤ ctx.processed || ctx.breakOnOperation && input.inputPending ||
      ctx.breakOnOperation && input.timesliceExpired then
    { m with running := some { ctx with state := .idle } }
  else if points cfg ≤ m.pSweep then { m with running := some { ctx with state := .idle } }
  else fsmSetupFreq cfg input ctx m

def finalCycle (ctx : Ctx R) : Bool := ctx.currentCycle = ctx.totalCycles - 1

/-- The channel in `channel_index`. -/
def channel (ctx : Ctx R) : Fin 2 := if ctx.channelIndex = 0 then 0 else 1

def nextStep (ctx : Ctx R) (m : Machine R) : Machine R :=
  { m with
    pSweep := m.pSweep + 1
    running := some { ctx with processed := ctx.processed + 1, state := .setupFreq } }

end Call

section Fsm

variable [Field R] [LinearOrder R] (cfg : Config R)

/-- The capture of the channel starts, and the last cycle looks up the error terms. -/
def startMeasure (ctx : Ctx R) (m : Machine R) : Machine R :=
  { m with
    sweepCalData :=
      if finalCycle ctx && cfg.mask.applyCalibration then
        calInterpolate cfg ctx.interpolationIdx ctx.frequency
      else m.sweepCalData
    running := some { ctx with state := .waitCapture } }

def fsmSetupMeasure (ctx : Ctx R) (m : Machine R) : Machine R :=
  if ctx.totalCycles ≤ ctx.currentCycle then
    { m with running := some { ctx with state := .nextStep } }
  else if cfg.mask.ch0Measure && ctx.channelIndex = 0 then startMeasure cfg ctx m
  else if cfg.mask.ch1Measure && ctx.channelIndex ≤ 1 then
    startMeasure cfg { ctx with channelIndex := 1 } m
  else
    { m with running := some { ctx with currentCycle := ctx.currentCycle + 1, channelIndex := 0 } }

def fsmProcess (ctx : Ctx R) (m : Machine R) : Machine R :=
  let ch := channel ctx
  let data := setHalf ch (cfg.response ctx.frequency ch) ctx.sweepData
  let next := fun data : Data R =>
    { ctx with sweepData := data, channelIndex := ctx.channelIndex + 1, state := .setupMeasure }
  if finalCycle ctx then
    let data := processChannel cfg ch ctx.frequency m.sweepCalData ctx.offset data
    { m with
      measured := Function.update m.measured ch
        (Function.update (m.measured ch) m.pSweep (half ch data))
      writes := Function.update m.writes ch
        (Function.update (m.writes ch) m.pSweep (m.writes ch m.pSweep + 1))
      running := some (next data) }
  else { m with running := some (next data) }

def fsmStep (input : Input) (ctx : Ctx R) (m : Machine R) : Machine R :=
  match ctx.state with
  | .idle => exitLoop cfg m
  | .setupFreq => setupFreq cfg input ctx m
  | .setupMeasure => fsmSetupMeasure cfg ctx m
  | .waitCapture =>
    if input.captured then { m with running := some { ctx with state := .process } }
    else { m with running := some { ctx with state := .fault } }
  | .process => fsmProcess cfg ctx m
  | .nextStep => nextStep ctx m
  | .fault => exitFailure m

/-- One call at a time: a step needs a call in progress, and a new call needs that there is
none. -/
def step (m : Machine R) : Action R → Option (Machine R)
  | .call breakOnOperation inputPending stack =>
    match m.running with
    | none => some (appMeasurementSweep cfg breakOnOperation inputPending stack m)
    | some _ => none
  | .step input =>
    match m.running with
    | none => none
    | some ctx => some (fsmStep cfg input ctx m)

end Fsm

end NanoVNA.SweepMachine
