import NanoVNA.DirtyCells
import NanoVNA.PlotLayout
import NanoVNA.SweepGrid
import Mathlib.Logic.Function.Basic

namespace NanoVNA.DrawAll

open NanoVNA.DeviceState NanoVNA.SweepGrid NanoVNA.PlotLayout NanoVNA.DirtyCells

/-- The bits of `redraw_request`. -/
inductive RedrawBit
  | plot
  | area
  | cells
  | frequency
  | calStatus
  | marker
  | reference
  | gridValue
  | battery
  | clrscr
  | backup
  deriving DecidableEq, Repr

inductive MeasureMode
  | none
  | lcMath
  | shuntLc
  | seriesLc
  | seriesXtal
  | filter
  | s11Cable
  | s11Resonance
  deriving DecidableEq, Repr

/-- `data_update`: new data, or a marker that moved. -/
structure UpdateFlags where
  sweep : Bool
  freq : Bool
  deriving DecidableEq

structure Trace where
  enabled : Bool
  type : Nat
  x : Nat → Nat
  y : Nat → Nat

structure View where
  trace : Fin 4 → Trace
  markers : Fin 8 → Marker

/-- A bit that was raised, with the cells that were marked at the time. -/
structure Request where
  bit : RedrawBit
  marked : Markmap

structure Plot (l : Layout) where
  area : Area l
  pending : RedrawBit → Bool
  marked : Markmap
  lastPlottedSweepPoints : Nat
  lastPlottedTraceMask : Nat
  view : View
  grid : Grid
  sweepPoints : Nat
  currentTrace : Option (Fin 4)
  activeMarker : Option (Fin 8)
  markerTrack : Bool
  searchMinimum : Bool
  showGrid : Bool
  /-- Whether the delay is not 0, the offset is not 0 and the port impedance is not 50. -/
  electricalDelay : Bool
  s21Offset : Bool
  portz : Bool
  measure : MeasureMode
  dataUpdate : UpdateFlags
  /-- A cell of a cleared screen has no view. -/
  screen : Screen Cell (Option View)
  /-- The bits outside the plot area that were acted on. -/
  acted : List RedrawBit
  raised : List Request

/-- The places that a resonance analysis finds: `none` where it stops or looks in vain, and
whether the frequency at the left edge is not zero. -/
structure SeriesPeaks where
  peak : Option Nat
  left : Option Nat
  leftFound : Bool
  right : Option Nat

structure FilterPeaks where
  peak : Nat
  aboveThreshold : Bool
  left : Option Nat
  right : Option Nat

structure Measured where
  coord : Fin 4 → Nat → Nat × Nat
  lcShunt : SeriesPeaks
  lcSeries : SeriesPeaks
  xtalNotch : Option Nat
  filter : FilterPeaks

variable {l : Layout}

def requestToRedraw (mask : List RedrawBit) (s : Plot l) : Plot l :=
  { s with
    pending := fun b => s.pending b || mask.contains b
    raised := s.raised ++ mask.map fun b => ⟨b, s.marked⟩ }

/-- Where the icon of a marker at a point lies: under a point close to the upper edge. -/
def iconAt (l : Layout) (t : Trace) (idx : Nat) : Int × Int :=
  ((t.x idx : Int) - l.xMarkerOffset,
    (t.y idx : Int) + if t.y idx < l.markerHeight * 2 then 1 else -(l.yMarkerOffset : Int))

def markIcon (l : Layout) (p : Int × Int) : Markmap → Markmap :=
  invalidateRectPx l p.1 p.2 (p.1 + l.markerWidth - 1) (p.2 + l.markerHeight - 1)

def requestToDrawMarker (l : Layout) (v : View) (idx : Nat) (marked : Markmap) : Markmap :=
  (List.finRange 4).foldl (fun marked t =>
    if (v.trace t).enabled then markIcon l (iconAt l (v.trace t) idx) marked else marked) marked

namespace Plot

variable (s : Plot l)

def mark (f : Markmap → Markmap) : Plot l := { s with marked := f s.marked }

def act (b : RedrawBit) : Plot l := { s with acted := s.acted ++ [b] }

def markerAreaMax : Nat :=
  let tCount := ((List.finRange 4).filter fun t => (s.view.trace t).enabled).length
  let mCount := ((List.finRange 8).filter fun m => (s.view.markers m).enabled).length
  let extra := (if s.electricalDelay then 2 else 0) + (if s.s21Offset then 2 else 0) +
    if s.portz then 2 else 0
  (max tCount mCount + max extra 2 + 1) / 2 * l.fontStrHeight

def markmapMarkerArea : Plot l :=
  s.mark (invalidateRectPx l 0 0 l.areaWidthNormal s.markerAreaMax)

def markEnabledMarkers : Markmap → Markmap :=
  (List.finRange 8).foldl fun marked m =>
    if (s.view.markers m).enabled then
      requestToDrawMarker l s.view (s.view.markers m).index marked
    else marked

def markmapAllMarkers : Plot l := (s.mark s.markEnabledMarkers).markmapMarkerArea

def markmapAllRefpos : Plot l :=
  s.mark (invalidateRectPx l 0 0 (l.cellOffsetX + 1) l.areaHeightNormal)

def markmapGridValues : Plot l :=
  if s.showGrid then
    s.mark (invalidateRectPx l l.gridXText 0 ((l.lcdWidth : Int) - l.offsetX) (l.lcdHeight - 1))
  else s

/-- The first part of `set_marker_index`: the old icons are to be erased. -/
def eraseMarker (m : Fin 8) : Plot l :=
  if (s.view.markers m).enabled then
    s.mark (requestToDrawMarker l s.view (s.view.markers m).index)
  else s

def placeMarker (m : Fin 8) (idx : Int) : Plot l :=
  { s with view := { s.view with
      markers := Function.update s.view.markers m
        (setMarkerIndex s.grid s.sweepPoints (s.view.markers m) idx) } }

/-- `set_marker_index` -/
def setMarker (m : Fin 8) (idx : Int) : Plot l :=
  requestToRedraw [.marker] ((s.eraseMarker m).placeMarker m idx)

/-- One point of the loop of `marker_search`, over the value and the place found so far. -/
def searchStep (y : Nat → Nat) (best : Nat × Nat) (i : Nat) : Nat × Nat :=
  if (if s.searchMinimum then best.1 < y i else y i < best.1) then (y i, i) else best

def markerSearch : Plot l :=
  match s.currentTrace, s.activeMarker with
  | some t, some m =>
    let y := (s.view.trace t).y
    s.setMarker m (((List.range' 1 (s.sweepPoints - 1)).foldl (s.searchStep y) (y 0, 0)).2 : Nat)
  | _, _ => s

end Plot

/-- `MarkLineState` with the tables and the marks that `mark_set_index` writes. -/
structure LineState where
  diff : Nat
  lastX : Nat
  lastY : Nat
  trace : Trace
  marked : Markmap

def markSetIndex (l : Layout) (coord : Nat → Nat × Nat) (w : LineState) (i : Nat) : LineState :=
  let old := (w.trace.x i, w.trace.y i)
  let diff := (w.diff * 2 + if old = coord i then 0 else 1) % 2 ^ 16
  let marked := if diff % 4 ≠ 0 ∧ 0 < i then
      markLine l (w.trace.x (i - 1)) (w.trace.y (i - 1)) (coord i).1 (coord i).2
        (markLine l w.lastX w.lastY old.1 old.2 w.marked)
    else w.marked
  ⟨diff, old.1, old.2,
    { w.trace with
      x := Function.update w.trace.x i (coord i).1
      y := Function.update w.trace.y i (coord i).2 },
    marked⟩

def traceIntoIndex (e : Measured) (s : Plot l) (t : Fin 4) : Plot l :=
  let w := (List.range s.sweepPoints).foldl (markSetIndex l (e.coord t))
    ⟨0, 0, 0, s.view.trace t, s.marked⟩
  { s with
    view := { s.view with trace := Function.update s.view.trace t w.trace }
    marked := w.marked }

def gatherTraceMask (v : View) : Nat :=
  (List.finRange 4).foldl (fun mask t =>
    if (v.trace t).enabled then mask ||| 2 ^ (v.trace t).type else mask) 0

/-- Other points or other types of traces than at the last time need the whole area. -/
def requestChangedArea (s : Plot l) : Plot l :=
  if s.lastPlottedSweepPoints ≠ s.sweepPoints ∨ s.lastPlottedTraceMask ≠ gatherTraceMask s.view then
    { requestToRedraw [.area] s with
      lastPlottedSweepPoints := s.sweepPoints, lastPlottedTraceMask := gatherTraceMask s.view }
  else s

def tracesIntoIndex (e : Measured) (s : Plot l) : Plot l :=
  (List.finRange 4).foldl (fun s t =>
    if (s.view.trace t).enabled then traceIntoIndex e s t else s) s

def trackMarker (s : Plot l) : Plot l := if s.markerTrack then s.markerSearch else s

/-- `measure_set_flag` after a sweep. -/
def measureSetSweep (s : Plot l) : Plot l :=
  { s with dataUpdate := { s.dataUpdate with sweep := true } }

def plotIntoIndex (e : Measured) (s : Plot l) : Plot l :=
  let s := tracesIntoIndex e (requestChangedArea s).markmapAllMarkers
  requestToRedraw [.marker, .cells] (measureSetSweep (trackMarker s))

/-- The markers that `analysis_lcshunt` and `analysis_lcseries` move, in their order. -/
def seriesMoves (p : SeriesPeaks) : List (Fin 8 × Nat) :=
  match p.peak, p.left with
  | none, _ => []
  | some xp, none => [(0, xp)]
  | some xp, some x =>
    [(0, xp), (1, x)] ++ if p.leftFound then p.right.toList.map fun x => (2, x) else []

def analysisXtalseries (e : Measured) : List (Fin 8 × Nat) :=
  seriesMoves e.lcSeries ++ e.xtalNotch.toList.map fun x => (3, x)

def filterMoves (p : FilterPeaks) : List (Fin 8 × Nat) :=
  if p.aboveThreshold then
    (0, p.peak) :: p.left.toList.map (fun x => (1, x)) ++ p.right.toList.map fun x => (2, x)
  else []

def moveMarkers (moves : List (Fin 8 × Nat)) (s : Plot l) : Plot l :=
  moves.foldl (fun s move => s.setMarker move.1 move.2) s

def markMeasure (lines : Nat) (s : Plot l) : Plot l :=
  s.mark (invalidateRectPx l (strMeasureX l) (strMeasureY l)
    (strMeasureX l + 3 * strMeasureWidth l) (strMeasureY l + lines * strMeasureHeight l))

/-- The frequency in front of the array, which no active marker makes it read, is taken as zero. -/
def prepareLcMatch (s : Plot l) : Plot l :=
  match s.activeMarker with
  | none => s
  | some m => if (s.view.markers m).frequency = 0 then s else markMeasure (4 + 2) s

def prepareSeries (moves : List (Fin 8 × Nat)) (lines : Nat) (s : Plot l) : Plot l :=
  (markMeasure lines (moveMarkers moves s)).markmapAllMarkers

def prepareFilter (e : Measured) (s : Plot l) : Plot l :=
  markMeasure 10 (moveMarkers (filterMoves e.filter) s)

/-- The callback of the mode and the updates it is for, from the table `measure`. -/
def measurePrepareCb (e : Measured) : MeasureMode → Option ((UpdateFlags → Bool) × (Plot l → Plot l))
  | .none => none
  | .lcMath => some (fun u => u.sweep || u.freq, prepareLcMatch)
  | .shuntLc => some (UpdateFlags.sweep, prepareSeries (seriesMoves e.lcShunt) 4)
  | .seriesLc => some (UpdateFlags.sweep, prepareSeries (seriesMoves e.lcSeries) 4)
  | .seriesXtal => some (UpdateFlags.sweep, prepareSeries (analysisXtalseries e) 6)
  | .filter => some (UpdateFlags.sweep, prepareFilter e)
  | .s11Cable => some (fun u => u.sweep || u.freq, markMeasure 6)
  | .s11Resonance => some (fun u => u.sweep || u.freq, markMeasure (6 + 1))

def runMeasureCb (e : Measured) (s : Plot l) : Plot l :=
  match measurePrepareCb e s.measure with
  | none => s
  | some (due, prepare) => if due s.dataUpdate then prepare s else s

def measurePrepare (e : Measured) (s : Plot l) : Plot l :=
  { runMeasureCb e s with dataUpdate := ⟨false, false⟩ }

/-- The loop of `draw_all_cells`, and the clearing after it. -/
def drawMarked (s : Plot l) : Plot l :=
  { s with
    screen := redraw (fun c => decide (InArea s.area c) && s.marked c) (some s.view) s.screen
    marked := clearMarkmap }

def drawAllCells (e : Measured) (s : Plot l) : Plot l := drawMarked (measurePrepare e s)

def markFor (b : RedrawBit) (marks : Plot l → Plot l) (s : Plot l) : Plot l :=
  if s.pending b then marks s else s

def markRequested (s : Plot l) : Plot l :=
  if s.pending .area then s.mark fun _ => forceSetMarkmap
  else
    markFor .gridValue Plot.markmapGridValues
      (markFor .reference Plot.markmapAllRefpos (markFor .marker Plot.markmapAllMarkers s))

def drawsCells (s : Plot l) : Bool :=
  s.pending .cells || s.pending .marker || s.pending .gridValue || s.pending .reference ||
    s.pending .area

def actOn (b : RedrawBit) (s : Plot l) : Plot l := if s.pending b then s.act b else s

def clearScreen (s : Plot l) : Plot l :=
  if s.pending .clrscr then { s.act .clrscr with screen := fun _ => none } else s

def clearRequests (s : Plot l) : Plot l := { s with pending := fun _ => false }

/-- The part of `draw_all` that is done without an area too. -/
def plotRequested (e : Measured) (s : Plot l) : Plot l :=
  let s := actOn .backup s
  if s.pending .plot then plotIntoIndex e s else s

def drawRequested (e : Measured) (s : Plot l) : Plot l :=
  let s := markRequested (clearScreen s)
  if drawsCells s then drawAllCells e s else s

def drawAll (e : Measured) (s : Plot l) : Plot l :=
  let s := plotRequested e s
  if s.area.width = 0 then clearRequests s
  else clearRequests (actOn .battery (actOn .calStatus (actOn .frequency (drawRequested e s))))

end NanoVNA.DrawAll
