import NanoVNA.Word32
import NanoVNA.DeviceState

namespace NanoVNA.SweepGrid

open NanoVNA.Word32 NanoVNA.DeviceState

variable {R : Type}

def needInterpolate (p : Properties R) (start stop points : Nat) : Bool :=
  start != p.calFrequency0 || stop != p.calFrequency1 || points != p.calSweepPoints

def sweepGetOrdered (p : Properties R) : Nat × Nat :=
  if p.frequency0 ≤ p.frequency1 then (p.frequency0, p.frequency1)
  else (p.frequency1, p.frequency0)

/-- The build without the frequency table keeps a step and the remainder to spread. -/
def appMeasurementSetFrequencies (start stop points : Nat) : Grid :=
  let span := sub32 stop start
  let fPoints := (points + 65535) % 65536
  ⟨start, span / fPoints, span % fPoints, fPoints⟩

def getFrequency (g : Grid) (idx : Nat) : Nat :=
  u32 (g.fStart + g.fDelta * idx + u32 (g.fPoints / 2 + g.fError * idx) / g.fPoints)

def setMarkerIndex (g : Grid) (points : Nat) (m : Marker) (idx : Int) : Marker :=
  let idx := if idx < 0 then 0 else idx
  let idx := if (points : Int) ≤ idx then (points : Int) - 1 else idx
  { m with index := idx.toNat, frequency := getFrequency g idx.toNat }

/-- The signed difference is divided by the unsigned step, so the division is unsigned. -/
def markerIndexOf (start stop points : Nat) (m : Marker) : Int :=
  let step := if 1 < points then sub32 stop start / (points - 1) else 1
  let index := int32 (sub32 m.frequency start / step)
  let index := if index < 0 then 0 else index
  if (points : Int) ≤ index then (points : Int) - 1 else index

def updateMarkerIndex (g : Grid) (start stop points : Nat) (p : Properties R) : Properties R :=
  { p with markers := fun i =>
      if (p.markers i).enabled then
        setMarkerIndex g p.sweepPoints (p.markers i) (markerIndexOf start stop points (p.markers i))
      else p.markers i }

def updateInterpolated (start stop : Nat) (p : Properties R) : Properties R :=
  { p with calStatus :=
      { p.calStatus with interpolated := needInterpolate p start stop p.sweepPoints } }

def appMeasurementUpdateFrequencies (s : Vna R) : Vna R :=
  let range := sweepGetOrdered s.props
  let grid := appMeasurementSetFrequencies range.1 range.2 s.props.sweepPoints
  let props := updateMarkerIndex grid range.1 range.2 s.props.sweepPoints s.props
  { s with grid := grid, props := updateInterpolated range.1 range.2 props }

def clampPoints (board : Board) (points : Nat) : Nat :=
  let points := if sweepPointsMax board < points then sweepPointsMax board else points
  if points < sweepPointsMin then sweepPointsMin else points

theorem clampPoints_min (board : Board) (points : Nat) :
    sweepPointsMin ≤ clampPoints board points := by
  unfold clampPoints
  dsimp only
  generalize (if sweepPointsMax board < points then sweepPointsMax board else points) = points
  split
  · exact Nat.le_refl _
  · exact Nat.le_of_not_lt ‹_›

def setSweepPoints (board : Board) (points : Nat) (s : Vna R) : Vna R :=
  let points := clampPoints board points
  if points = s.props.sweepPoints then s
  else
    let s := appMeasurementUpdateFrequencies { s with props := { s.props with sweepPoints := points } }
    let range := sweepGetOrdered s.props
    let props := updateMarkerIndex s.grid range.1 range.2 s.props.sweepPoints s.props
    { s with props := updateInterpolated range.1 range.2 props }

@[simp] theorem update_frequency0 (s : Vna R) :
    (appMeasurementUpdateFrequencies s).props.frequency0 = s.props.frequency0 := rfl

@[simp] theorem update_frequency1 (s : Vna R) :
    (appMeasurementUpdateFrequencies s).props.frequency1 = s.props.frequency1 := rfl

@[simp] theorem update_sweepPoints (s : Vna R) :
    (appMeasurementUpdateFrequencies s).props.sweepPoints = s.props.sweepPoints := rfl

theorem enabled_setMarkerIndex (g : Grid) (points : Nat) (m : Marker) (idx : Int) :
    (setMarkerIndex g points m idx).enabled = m.enabled := rfl

theorem enabled_updateMarkerIndex (g : Grid) (start stop points : Nat) (p : Properties R)
    (i : Fin 8) :
    ((updateMarkerIndex g start stop points p).markers i).enabled = (p.markers i).enabled := by
  simp only [updateMarkerIndex]
  split
  · exact enabled_setMarkerIndex g _ _ _
  · exact Eq.refl _

theorem enabled_update (s : Vna R) (i : Fin 8) :
    ((appMeasurementUpdateFrequencies s).props.markers i).enabled = (s.props.markers i).enabled :=
  enabled_updateMarkerIndex _ _ _ _ s.props i

end NanoVNA.SweepGrid
