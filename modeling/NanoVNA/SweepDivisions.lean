import NanoVNA.CheckedArithmetic
import NanoVNA.ScanCommand

namespace NanoVNA.SweepDivisions

open NanoVNA.Word32 NanoVNA.DeviceState NanoVNA.SweepGrid NanoVNA.SweepFrequency
open NanoVNA.SweepRequests NanoVNA.ShellArguments NanoVNA.ScanCommand NanoVNA.CheckedArithmetic

variable {R : Type}

def checkedSetFrequencies (start stop points : Nat) : Option Grid := do
  let span := sub32 stop start
  let fPoints := (points + 65535) % 65536
  let fDelta ← divide span fPoints
  let fError ← remainder span fPoints
  return ⟨start, fDelta, fError, fPoints⟩

def checkedGetFrequency (g : Grid) (idx : Nat) : Option Nat := do
  let extra ← divide (u32 (g.fPoints / 2 + g.fError * idx)) g.fPoints
  return u32 (g.fStart + g.fDelta * idx + extra)

def checkedSetMarkerIndex (g : Grid) (points : Nat) (m : Marker) (idx : Int) : Option Marker := do
  let idx := if idx < 0 then 0 else idx
  let idx := if (points : Int) ≤ idx then (points : Int) - 1 else idx
  let frequency ← checkedGetFrequency g idx.toNat
  return { m with index := idx.toNat, frequency := frequency }

/-- One round of the loop of `update_marker_index`. -/
def checkedMarker (g : Grid) (start points sweepPoints step : Nat) (m : Marker) :
    Option Marker :=
  if m.enabled then do
    let index ← divide (sub32 m.frequency start) step
    let index := if int32 index < 0 then 0 else int32 index
    let index := if (points : Int) ≤ index then (points : Int) - 1 else index
    checkedSetMarkerIndex g sweepPoints m index
  else some m

def checkedStep (start stop points : Nat) : Option Nat :=
  if 1 < points then divide (sub32 stop start) (points - 1) else some 1

def checkedUpdateMarkerIndex (g : Grid) (start stop points : Nat) (p : Properties R) :
    Option (Properties R) := do
  let step ← checkedStep start stop points
  let markers ← rewriteEach (checkedMarker g start points p.sweepPoints step) (List.finRange 8)
    p.markers
  return { p with markers := markers }

/-- A grid step is taken, doubled or taken five times if it fits often enough. -/
def tryStep (fspan grid next : Nat) : Nat :=
  let k := fspan / grid
  if 20 ≤ k then grid * 5
  else if 8 ≤ k then grid * 2
  else if 4 ≤ k then grid
  else next

def gridStep (fspan : Nat) : Nat → Nat
  | 0 => tryStep fspan 1 1
  | e + 1 => tryStep fspan (10 ^ (e + 1)) (gridStep fspan e)

/-- The offset and the distance of the vertical lines, in 1/128 of a pixel. -/
structure GridLines where
  offset : Nat
  width : Nat
  deriving DecidableEq

def plotWidth : Board → Nat
  | .f072 => 300
  | .f303 => 455

def updateGrid (board : Board) (fstart fstop : Nat) : GridLines :=
  let fspan := sub32 fstop fstart
  if fspan = 0 then ⟨0, 0⟩
  else
    let grid := gridStep fspan 9
    ⟨fstart % grid * (plotWidth board * 128) / fspan % 65536,
      grid * (plotWidth board * 128) / fspan % 65536⟩

def checkedRectangularGridX (board : Board) (lines : GridLines) (x : Nat) : Option Bool :=
  let x := sub32 x 5
  if plotWidth board < x then some false
  else if x = 0 ∨ x = plotWidth board then some true
  else (remainder (x * 128 + lines.offset) lines.width).map fun r => r < 128

/-- The integer part of `measure_get_value`: the point below a frequency, and the frequencies of
that point and the next. -/
structure Bracket where
  idx : Nat
  srcF0 : Nat
  srcF1 : Nat

def checkedBracket (frequency0 span points idx : Nat) : Option (Option Bracket) :=
  if idx < 1 ∨ points ≤ idx then some none
  else do
    let v := span * idx + points / 2
    let below ← divide v points
    let above ← divide (v + span) points
    return some ⟨idx, u32 (frequency0 + below), u32 (frequency0 + above)⟩

def checkedMeasureGetValue (p : Properties R) (f : Nat) : Option (Option Bracket) :=
  if f < p.frequency0 ∨ p.frequency1 < f then some none
  else
    let points := (p.sweepPoints + 65535) % 65536
    let span := sub32 p.frequency1 p.frequency0
    (divide ((f - p.frequency0) * points) span).bind fun idx =>
      checkedBracket p.frequency0 span points (u32 idx)

structure Drawn (R : Type) where
  vna : Vna R
  lines : GridLines

def Drawn.withProps (w : Drawn R) (p : Properties R) : Drawn R :=
  { w with vna := { w.vna with props := p } }

def checkedSettle (board : Board) (w : Drawn R) : Option (Drawn R) := do
  let range := sweepGetOrdered w.vna.props
  let props ← checkedUpdateMarkerIndex w.vna.grid range.1 range.2 w.vna.props.sweepPoints w.vna.props
  return ⟨{ w.vna with props := updateInterpolated range.1 range.2 props },
    updateGrid board range.1 range.2⟩

def checkedUpdate (board : Board) (w : Drawn R) : Option (Drawn R) := do
  let range := sweepGetOrdered w.vna.props
  let grid ← checkedSetFrequencies range.1 range.2 w.vna.props.sweepPoints
  checkedSettle board { w with vna := { w.vna with grid := grid } }

def requestRange (type : StimulusType) (freq : Nat) (enforceOrder : Bool) (p : Properties R) :
    Properties R :=
  let (type, freq) := resolveStep p type (clampLow type freq)
  let freq := clampHigh type freq
  match type with
  | .start => setStart enforceOrder freq p
  | .stop => setStop enforceOrder freq p
  | .center => setCenter freq p
  | .span => setSpan freq p
  | .cw => setCw freq p
  | .var => { p with varFreq := freq }
  | .step => p

def checkedSetSweepFrequency (board : Board) (type : StimulusType) (freq : Nat)
    (enforceOrder : Bool) (w : Drawn R) : Option (Drawn R) :=
  if type = .var then some (w.withProps (requestRange type freq enforceOrder w.vna.props))
  else checkedUpdate board (w.withProps (requestRange type freq enforceOrder w.vna.props))

def checkedSetSweepPoints (board : Board) (points : Nat) (w : Drawn R) : Option (Drawn R) :=
  let points := clampPoints board points
  if points = w.vna.props.sweepPoints then some w
  else
    (checkedUpdate board (w.withProps { w.vna.props with sweepPoints := points })).bind
      (checkedSettle board)

def calibratedSweep (p : Properties R) : Properties R :=
  { p with
    frequency0 := p.calFrequency0
    frequency1 := p.calFrequency1
    sweepPoints := p.calSweepPoints }

def checkedResetSweepFrequency (board : Board) (w : Drawn R) : Option (Drawn R) :=
  (checkedUpdate board (w.withProps (calibratedSweep w.vna.props))).bind (checkedSettle board)

def checkedLoadSnp (board : Board) (lines : List Nat) (w : Drawn R) : Option (Drawn R) :=
  if sweepPointsMax board < lines.length ∨ lines.any (frequencyMax < ·) then some w
  else
    match lines with
    | [] => some w
    | start :: rest =>
      (checkedSetSweepFrequency board .start start true
          (w.withProps { w.vna.props with sweepPoints := rest.length + 1 })).bind
        (checkedSetSweepFrequency board .stop (rest.getLastD start) true)

/-- The bits of the sweep mode play no part in the range of a scan. -/
def scanOf (board : Board) (argv : List Arg) (s : Vna R) : Option ScanRequest :=
  scanRequest board ⟨s, true, false⟩ argv

/-- The grid of the scan is set; what `restore_config` asks for comes after the output. -/
def checkedRestore (board : Board) (r : ScanRequest) (w : Drawn R) (grid : Grid) :
    Option (Drawn R) :=
  let scanned : Drawn R := { w with vna := { scanSweep r w.vna with grid := grid } }
  if restoreConfig r w.vna.props then
    checkedUpdate board
      (scanned.withProps { scanned.vna.props with sweepPoints := w.vna.props.sweepPoints })
  else some scanned

def checkedScan (board : Board) (argv : List Arg) (w : Drawn R) : Option (Drawn R) :=
  match scanOf board argv w.vna with
  | none => some w
  | some r => (checkedSetFrequencies r.start r.stop r.points).bind (checkedRestore board r w)

inductive DrawnCall
  | sweepFrequency (type : StimulusType) (freq : UInt32) (enforceOrder : Bool)
  | sweepPoints (points : UInt16)
  | resetSweepFrequency
  | loadSnp (lines : List UInt32)
  | scan (argv : List Arg)
  | getFrequency (idx : UInt16)
  | rectangularGridX (x : UInt32)
  | measureGetValue (f : UInt32)

def drawnCall (board : Board) (w : Drawn R) : DrawnCall → Option (Drawn R)
  | .sweepFrequency type freq enforceOrder =>
    checkedSetSweepFrequency board type freq.toNat enforceOrder w
  | .sweepPoints points => checkedSetSweepPoints board points.toNat w
  | .resetSweepFrequency => checkedResetSweepFrequency board w
  | .loadSnp lines => checkedLoadSnp board (lines.map UInt32.toNat) w
  | .scan argv => checkedScan board argv w
  | .getFrequency idx => (checkedGetFrequency w.vna.grid idx.toNat).map fun _ => w
  | .rectangularGridX x => (checkedRectangularGridX board w.lines x.toNat).map fun _ => w
  | .measureGetValue f => (checkedMeasureGetValue w.vna.props f.toNat).map fun _ => w

variable {board : Board} {w t : Drawn R}

theorem checkedSetFrequencies_eq_some_iff {start stop points : Nat} {g : Grid} :
    checkedSetFrequencies start stop points = some g ↔
      (points + 65535) % 65536 ≠ 0 ∧ appMeasurementSetFrequencies start stop points = g := by
  simp only [checkedSetFrequencies, Option.bind_eq_bind, Option.bind_eq_some_iff,
    divide_eq_some_iff, remainder_eq_some_iff, Option.pure_def, Option.some_inj]
  constructor
  · rintro ⟨_, ⟨hne, rfl⟩, _, ⟨-, rfl⟩, rfl⟩
    exact ⟨hne, rfl⟩
  · rintro ⟨hne, rfl⟩
    exact ⟨_, ⟨hne, rfl⟩, _, ⟨hne, rfl⟩, rfl⟩

theorem checkedGetFrequency_eq_some_iff {g : Grid} {idx f : Nat} :
    checkedGetFrequency g idx = some f ↔ g.fPoints ≠ 0 ∧ getFrequency g idx = f := by
  simp only [checkedGetFrequency, Option.bind_eq_bind, Option.bind_eq_some_iff,
    divide_eq_some_iff, Option.pure_def, Option.some_inj]
  constructor
  · rintro ⟨_, ⟨hne, rfl⟩, rfl⟩
    exact ⟨hne, rfl⟩
  · rintro ⟨hne, rfl⟩
    exact ⟨_, ⟨hne, rfl⟩, rfl⟩

theorem checkedSetMarkerIndex_eq_some_iff {g : Grid} {points : Nat} {m m' : Marker} {idx : Int} :
    checkedSetMarkerIndex g points m idx = some m' ↔
      g.fPoints ≠ 0 ∧ setMarkerIndex g points m idx = m' := by
  simp only [checkedSetMarkerIndex, Option.bind_eq_bind, Option.bind_eq_some_iff,
    checkedGetFrequency_eq_some_iff, Option.pure_def, Option.some_inj]
  constructor
  · rintro ⟨_, ⟨hne, rfl⟩, rfl⟩
    exact ⟨hne, rfl⟩
  · rintro ⟨hne, rfl⟩
    exact ⟨_, ⟨hne, rfl⟩, rfl⟩

def markerStep (start stop points : Nat) : Nat :=
  if 1 < points then sub32 stop start / (points - 1) else 1

theorem checkedMarker_eq_some_iff {g : Grid} {start stop points sweepPoints : Nat}
    {m m' : Marker} :
    checkedMarker g start points sweepPoints (markerStep start stop points) m = some m' ↔
      (m.enabled = true → markerStep start stop points ≠ 0 ∧ g.fPoints ≠ 0) ∧
        (if m.enabled then setMarkerIndex g sweepPoints m (markerIndexOf start stop points m)
          else m) = m' := by
  unfold checkedMarker
  cases m.enabled with
  | false => exact Option.some_inj.trans (and_iff_right nofun).symm
  | true =>
    simp only [if_true, true_imp_iff, Option.bind_eq_bind, Option.bind_eq_some_iff,
      divide_eq_some_iff, checkedSetMarkerIndex_eq_some_iff]
    constructor
    · rintro ⟨_, ⟨hstep, rfl⟩, hpoints, rfl⟩
      exact ⟨⟨hstep, hpoints⟩, rfl⟩
    · rintro ⟨⟨hstep, hpoints⟩, rfl⟩
      exact ⟨_, ⟨hstep, rfl⟩, hpoints, rfl⟩

theorem checkedUpdateMarkerIndex_eq_some_iff {g : Grid} {start stop points : Nat}
    {p p' : Properties R} :
    checkedUpdateMarkerIndex g start stop points p = some p' ↔
      (∀ i, (p.markers i).enabled = true → markerStep start stop points ≠ 0 ∧ g.fPoints ≠ 0) ∧
        updateMarkerIndex g start stop points p = p' := by
  have hstep : checkedStep start stop points = some (markerStep start stop points) := by
    unfold checkedStep markerStep
    split
    · exact divide_eq_some_iff.mpr ⟨by omega, rfl⟩
    · rfl
  simp only [checkedUpdateMarkerIndex, Option.bind_eq_bind, hstep, Option.bind_some,
    Option.bind_eq_some_iff, rewriteEach_eq_some_iff _ (List.nodup_finRange 8),
    checkedMarker_eq_some_iff, Option.pure_def, Option.some_inj, List.mem_finRange, true_imp_iff,
    not_true_eq_false, false_imp_iff, implies_true, and_true]
  constructor
  · rintro ⟨markers, hmarkers, rfl⟩
    refine ⟨fun i => (hmarkers i).1, ?_⟩
    have heq : markers = (updateMarkerIndex g start stop points p).markers := by
      funext i
      exact (hmarkers i).2.symm
    rw [heq]
    rfl
  · rintro ⟨hdefined, rfl⟩
    exact ⟨_, fun i => ⟨hdefined i, rfl⟩, rfl⟩

end NanoVNA.SweepDivisions
