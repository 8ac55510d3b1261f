import NanoVNA.Calibration
import NanoVNA.ShellArguments
import NanoVNA.SweepRequests

namespace NanoVNA.ScanCommand

open NanoVNA.DeviceState NanoVNA.SweepGrid NanoVNA.SweepFrequency NanoVNA.SweepRequests
open NanoVNA.Calibration NanoVNA.ShellArguments

variable {R : Type}

/-- The sweep, with the two bits of `sweep_mode` that the scan reads or writes. -/
structure Console (R : Type) where
  vna : Vna R
  enabled : Bool
  binary : Bool

structure ScanRequest where
  start : Nat
  stop : Nat
  points : Nat
  mask : Nat
  deriving DecidableEq

/-- The checks of `cmd_scan`; an argument list that fails one of them is answered with a message
and nothing else. -/
def scanRequest (board : Board) (c : Console R) : List Arg → Option ScanRequest
  | start :: stop :: args =>
    let start := myAtoui start
    let stop := myAtoui stop
    if 2 < args.length then none
    else if start = 0 ∨ stop = 0 ∨ stop < start ∨ start < 50000 ∨ frequencyMax < stop then none
    else
      match args with
      | [] => some ⟨start, stop, c.vna.props.sweepPoints, 0⟩
      | points :: rest =>
        let points := myAtoui points % 65536
        if points = 0 ∨ sweepPointsMax board < points then none
        else
          match rest with
          | [] => some ⟨start, stop, points, 0⟩
          | mask :: _ =>
            let mask := myAtoui mask % 65536
            some ⟨start, stop, points, if c.binary then mask ||| 128 else mask⟩
  | _ => none

def restoreConfig (r : ScanRequest) (p : Properties R) : Bool :=
  r.start ≠ getSweepFrequency p .start ∨ r.stop ≠ getSweepFrequency p .stop ∨
    r.points ≠ p.sweepPoints

/-- The sweep while the scan runs: the range of the grid is that of the request. -/
def scanSweep (r : ScanRequest) (s : Vna R) : Vna R :=
  { s with
    props := { s.props with sweepPoints := r.points }
    grid := appMeasurementSetFrequencies r.start r.stop r.points }

def restoreSweep (originalPoints : Nat) (s : Vna R) : Vna R :=
  appMeasurementUpdateFrequencies { s with props := { s.props with sweepPoints := originalPoints } }

def pauseSweep (c : Console R) : Console R := { c with enabled := false }

def resumeSweep (c : Console R) : Console R := { c with enabled := true }

def cmdScan (board : Board) (argv : List Arg) (c : Console R) : Console R :=
  match scanRequest board c argv with
  | none => c
  | some r =>
    let scanned := pauseSweep { c with vna := scanSweep r c.vna, binary := false }
    resumeSweep
      (if restoreConfig r c.vna.props then
        { scanned with vna := restoreSweep c.vna.props.sweepPoints scanned.vna }
      else scanned)

/-- The shell pauses the sweep before the command and resumes it afterwards if it was running. -/
def executeScan (board : Board) (argv : List Arg) (c : Console R) : Console R :=
  let done := cmdScan board argv (pauseSweep c)
  if c.enabled then resumeSweep done else done

theorem executeScan_eq (board : Board) (argv : List Arg) (c : Console R) :
    executeScan board argv c = cmdScan board argv c := by
  obtain ⟨vna, enabled, binary⟩ := c
  simp only [executeScan, cmdScan, pauseSweep]
  have hreq : scanRequest board ⟨vna, false, binary⟩ argv =
      scanRequest board ⟨vna, enabled, binary⟩ argv := rfl
  rw [hreq]
  cases scanRequest board ⟨vna, enabled, binary⟩ argv with
  | none => cases enabled <;> rfl
  | some r => cases enabled <;> rfl

structure Transparent (c d : Console R) : Prop where
  frequency0 : d.vna.props.frequency0 = c.vna.props.frequency0
  frequency1 : d.vna.props.frequency1 = c.vna.props.frequency1
  points : d.vna.props.sweepPoints = c.vna.props.sweepPoints
  grid : ∀ idx, getFrequency d.vna.grid idx = getFrequency c.vna.grid idx
  interpolated : d.vna.props.calStatus.interpolated = c.vna.props.calStatus.interpolated
  enabled : d.enabled = c.enabled

def sweepGridOf (p : Properties R) : Grid :=
  appMeasurementSetFrequencies (sweepGetOrdered p).1 (sweepGetOrdered p).2 p.sweepPoints

def FlagTrue (p : Properties R) : Prop :=
  p.calStatus.interpolated =
    needInterpolate p (sweepGetOrdered p).1 (sweepGetOrdered p).2 p.sweepPoints

instance (p : Properties R) : Decidable (FlagTrue p) := inferInstanceAs (Decidable (_ = _))

variable {r : ScanRequest} {c : Console R}

theorem scanned_grid (h : restoreConfig r c.vna.props = false) :
    appMeasurementSetFrequencies r.start r.stop r.points = sweepGridOf c.vna.props := by
  simp only [restoreConfig, decide_eq_false_iff_not, not_or, not_not] at h
  obtain ⟨hstart, hstop, hpoints⟩ := h
  rw [hstart, hstop, hpoints]
  rfl

/-- A scan over another range or count leaves the grid of the sweep. -/
theorem restored_grid (r : ScanRequest) (s : Vna R) :
    (restoreSweep s.props.sweepPoints (scanSweep r s)).grid = sweepGridOf s.props := rfl

/-- The scan is transparent exactly when it is refused, or it finds the sweep running, the grid
in step with the range, and, for another range or count, a flag that tells the truth. -/
theorem cmdScan_transparent_iff (board : Board) (argv : List Arg) (c : Console R) :
    Transparent c (cmdScan board argv c) ↔
      ∀ r, scanRequest board c argv = some r →
        c.enabled = true ∧
          (∀ idx, getFrequency (sweepGridOf c.vna.props) idx = getFrequency c.vna.grid idx) ∧
          (restoreConfig r c.vna.props = true → FlagTrue c.vna.props) := by
  unfold cmdScan
  cases hreq : scanRequest board c argv with
  | none => exact iff_of_true ⟨rfl, rfl, rfl, fun _ => rfl, rfl, rfl⟩ nofun
  | some r =>
    simp only [Option.some.injEq, forall_eq']
    cases hrestore : restoreConfig r c.vna.props with
    | true =>
      constructor
      · intro h
        refine ⟨h.enabled.symm, fun idx => ?_, fun _ => h.interpolated.symm⟩
        rw [← restored_grid r c.vna]
        exact h.grid idx
      · rintro ⟨henabled, hgrid, hflag⟩
        exact ⟨rfl, rfl, rfl, hgrid, (hflag rfl).symm, henabled.symm⟩
    | false =>
      have hscan := scanned_grid hrestore
      have hpoints : r.points = c.vna.props.sweepPoints := by
        simp only [restoreConfig, decide_eq_false_iff_not, not_or, not_not] at hrestore
        exact hrestore.2.2
      constructor
      · intro h
        refine ⟨h.enabled.symm, fun idx => ?_, nofun⟩
        rw [← hscan]
        exact h.grid idx
      · rintro ⟨henabled, hgrid, -⟩
        refine ⟨rfl, rfl, hpoints, fun idx => ?_, rfl, henabled.symm⟩
        rw [← hgrid idx, ← hscan]
        rfl

/-- A scan from the shell while the sweep is paused sets it running. -/
theorem scan_resumes_paused :
    let c : Console Nat := ⟨appMeasurementUpdateFrequencies (defaultVna Nat .f072), false, false⟩
    ¬ Transparent c (cmdScan .f072 ["1000000".toList, "2000000".toList, "11".toList] c) := by
  intro c h
  have henabled := h.enabled
  revert henabled
  decide +kernel

end NanoVNA.ScanCommand
