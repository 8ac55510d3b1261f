import NanoVNA.SweepFrequency

namespace NanoVNA.SweepRequests

open NanoVNA.Word32 NanoVNA.DeviceState NanoVNA.SweepGrid NanoVNA.SweepFrequency

variable {R : Type}

def getSweepFrequency (p : Properties R) : StimulusType → Nat
  | .start => (sweepGetOrdered p).1
  | .stop => (sweepGetOrdered p).2
  | .center => ((sweepGetOrdered p).1 + (sweepGetOrdered p).2) / 2
  | .span => sub32 (sweepGetOrdered p).2 (sweepGetOrdered p).1
  | .cw => p.frequency0
  | .step | .var => 0

/-- The markers and the flag are compared with the grid once more after the update. -/
def settleSweep (s : Vna R) : Vna R :=
  let range := sweepGetOrdered s.props
  let props := updateMarkerIndex s.grid range.1 range.2 s.props.sweepPoints s.props
  { s with props := updateInterpolated range.1 range.2 props }

def resetSweepFrequency (s : Vna R) : Vna R :=
  settleSweep (appMeasurementUpdateFrequencies { s with props :=
    { s.props with
      frequency0 := s.props.calFrequency0
      frequency1 := s.props.calFrequency1
      sweepPoints := s.props.calSweepPoints } })

/-- `load_snp` with the frequencies of the data lines of the file; a line too many or a frequency
too high ends the load with an error. -/
def loadSnp (board : Board) (lines : List Nat) (s : Vna R) : Vna R :=
  if sweepPointsMax board < lines.length ∨ lines.any (frequencyMax < ·) then s
  else
    match lines with
    | [] => s
    | start :: rest =>
      let s := { s with props := { s.props with sweepPoints := rest.length + 1 } }
      setSweepFrequency .stop (rest.getLastD start) (setSweepFrequency .start start s)

theorem setSweepPoints_cases (board : Board) (points : Nat) (s : Vna R) :
    setSweepPoints board points s = s ∨
      setSweepPoints board points s = settleSweep (appMeasurementUpdateFrequencies
        { s with props := { s.props with sweepPoints := clampPoints board points } }) := by
  simp only [setSweepPoints]
  split
  · exact .inl rfl
  · exact .inr rfl

theorem loadSnp_cases (board : Board) (lines : List Nat) (s : Vna R) :
    loadSnp board lines s = s ∨
      ∃ points start stop, 1 ≤ points ∧ points ≤ sweepPointsMax board ∧
        loadSnp board lines s = setSweepFrequency .stop stop (setSweepFrequency .start start
          { s with props := { s.props with sweepPoints := points } }) := by
  unfold loadSnp
  split
  · exact .inl rfl
  · rename_i hok
    cases lines with
    | nil => exact .inl rfl
    | cons start rest =>
      have hlen : rest.length + 1 ≤ sweepPointsMax board := Nat.le_of_not_lt fun h => hok (.inl h)
      exact .inr ⟨rest.length + 1, start, _, Nat.succ_pos _, hlen, rfl⟩

end NanoVNA.SweepRequests
