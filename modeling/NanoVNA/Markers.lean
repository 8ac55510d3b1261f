import Mathlib.Logic.Function.Basic
import NanoVNA.Calibration
import NanoVNA.ShellArguments
import NanoVNA.SweepRequests

namespace NanoVNA.Markers

open NanoVNA.Word32 NanoVNA.DeviceState NanoVNA.SweepGrid NanoVNA.SweepFrequency
open NanoVNA.SweepRequests NanoVNA.Calibration NanoVNA.ShellArguments

variable {R α : Type}

/-- The sweep, and the two references of the properties to its markers; `MARKER_INVALID` is
`none`. -/
structure Marked (R : Type) where
  vna : Vna R
  active : Option (Fin 8)
  previous : Option (Fin 8)

def startedMarked (R : Type) [Zero R] (board : Board) : Marked R :=
  ⟨appMeasurementUpdateFrequencies (defaultVna R board), some 0, none⟩

namespace Marked

def marker (s : Marked R) (i : Fin 8) : Marker := s.vna.props.markers i

def withVna (s : Marked R) (vna : Vna R) : Marked R := { s with vna := vna }

def setMarkers (s : Marked R) (markers : Fin 8 → Marker) : Marked R :=
  s.withVna { s.vna with props := { s.vna.props with markers := markers } }

def enable (s : Marked R) (i : Fin 8) (enabled : Bool) : Marked R :=
  s.setMarkers (Function.update s.marker i { s.marker i with enabled := enabled })

def enableAll (s : Marked R) (enabled : Bool) : Marked R :=
  s.setMarkers fun i => { s.marker i with enabled := enabled }

/-- `set_marker_index` -/
def place (s : Marked R) (i : Fin 8) (idx : Int) : Marked R :=
  s.setMarkers (Function.update s.marker i
    (setMarkerIndex s.vna.grid s.vna.props.sweepPoints (s.marker i) idx))

/-- A marker as the code reads it; below the array it finds whatever the memory there holds, or
the read is not allowed. -/
def read (s : Marked R) (below : Option Marker) : Option (Fin 8) → Option Marker
  | none => below
  | some i => some (s.marker i)

end Marked

inductive MarkerRequest
  | list
  | all (enabled : Bool)
  | select (t : Fin 8)
  | on (t : Fin 8)
  | off (t : Fin 8)
  | index (t : Fin 8) (idx : Int)
  | usage
  deriving DecidableEq

theorem markerIndex_lt {t : Int} (h : 0 ≤ t ∧ t < 8) : t.toNat < 8 := by omega

/-- What the arguments of `cmd_marker` ask for. -/
def markerRequest : List Arg → MarkerRequest
  | [] => .list
  | arg :: args =>
    match getStrIndex arg "on|off" with
    | some enable => .all (enable = 0)
    | none =>
      let t := myAtoi arg - 1
      if h : 0 ≤ t ∧ t < 8 then
        let t : Fin 8 := ⟨t.toNat, markerIndex_lt h⟩
        match args with
        | [] => .select t
        | arg :: _ =>
          match getStrIndex arg "on|off" with
          | some 0 => .on t
          | some 1 => .off t
          | _ => .index t (myAtoi arg)
      else .usage

def cmdMarker (argv : List Arg) (s : Marked R) : Marked R :=
  match markerRequest argv with
  | .list | .usage => s
  | .all enabled => { s.enableAll enabled with active := if enabled then some 0 else none }
  | .select t | .on t => { s.enable t true with active := some t }
  | .off t => { s.enable t false with active := if s.active = some t then none else s.active }
  | .index t idx => { (s.enable t true).place t idx with active := some t }

/-- A loop over the markers that keeps the last enabled one, other than the one to skip. -/
def lastEnabled (s : Marked R) (skip start : Option (Fin 8)) : Option (Fin 8) :=
  (List.finRange 8).foldl
    (fun found i => if (s.marker i).enabled ∧ some i ≠ skip then some i else found) start

def activeMarkerCheck (s : Marked R) : Marked R :=
  let active := if s.active = none then lastEnabled s none none else s.active
  let previous := if s.previous = active then none else s.previous
  { s with
    active := active
    previous := if previous = none then lastEnabled s active none else previous }

def menuMarkerSelAcb (mk : Fin 8) (s : Marked R) : Marked R :=
  if (s.marker mk).enabled then
    if s.active = some mk then
      activeMarkerCheck { s.enable mk false with active := s.previous, previous := none }
    else activeMarkerCheck { s with active := some mk, previous := s.active }
  else activeMarkerCheck { s.enable mk true with active := some mk, previous := s.active }

def menuMarkerDisableAllCb (s : Marked R) : Marked R :=
  { s.enableAll false with active := none, previous := none }

inductive MarkerOp
  | start
  | stop
  | center
  | span
  | edelay
  deriving DecidableEq

/-- A lone marker becomes an edge of the span; two of them become its ends. -/
def markerSpan (below : Option Marker) (freq : Nat) (s : Marked R) : Option (Marked R) :=
  if s.previous = none ∨ s.active = s.previous then
    let center := getSweepFrequency s.vna.props .center
    let span := if freq < center then center - freq else sub32 freq center
    some (s.withVna (setSweepFrequency .span (u32 (span * 2)) s.vna))
  else
    (s.read below s.previous).map fun marker =>
      let freq2 := marker.frequency
      if freq2 = 0 then s
      else s.withVna (setSweepFrequency .stop (max freq freq2)
        (setSweepFrequency .start (min freq freq2) s.vna))

/-- The electrical delay is no part of the sweep. -/
def menuMarkerOpCb (below : Option Marker) (op : MarkerOp) (s : Marked R) : Option (Marked R) :=
  (s.read below s.active).bind fun marker =>
    let freq := marker.frequency
    if freq = 0 then some s
    else
      match op with
      | .start => some (s.withVna (setSweepFrequency .start freq s.vna))
      | .stop => some (s.withVna (setSweepFrequency .stop freq s.vna))
      | .center => some (s.withVna (setSweepFrequency .center freq s.vna))
      | .span => markerSpan below freq s
      | .edelay => some s

/-- The heights of a trace on the screen, and whether the search looks for the lowest point. -/
structure Curve where
  y : Nat → Int
  lowest : Bool

def Curve.compare (c : Curve) (x y : Int) : Bool := if c.lowest then x < y else y < x

def markerSearch (curve : Option Curve) (s : Marked R) : Marked R :=
  match curve, s.active with
  | some c, some i =>
    let best := ((List.range s.vna.props.sweepPoints).drop 1).foldl
      (fun (value, found) i => if c.compare value (c.y i) then (c.y i, i) else (value, found))
      (c.y 0, 0)
    s.place i best.2
  | _, _ => s

inductive SearchDir
  | left
  | right
  deriving DecidableEq

def SearchDir.ahead (points start : Nat) : SearchDir → List Nat
  | .left => if start ≤ points then (List.range start).reverse else []
  | .right => (List.range points).drop (start + 1)

def leaveHill (c : Curve) : Int → List Nat → Int × List Nat
  | value, [] => (value, [])
  | value, i :: is => if c.compare value (c.y i) then (value, i :: is) else leaveHill c (c.y i) is

def climbHill (c : Curve) : Option Nat → Int → List Nat → Option Nat
  | found, _, [] => found
  | found, value, i :: is =>
    if c.compare (c.y i) value then found else climbHill c (some i) (c.y i) is

def markerSearchDir (curve : Option Curve) (start : Nat) (dir : SearchDir) (s : Marked R) :
    Marked R :=
  match curve, s.active with
  | some c, some i =>
    let valley := leaveHill c (c.y start) (dir.ahead s.vna.props.sweepPoints start)
    match climbHill c none valley.1 valley.2 with
    | none => s
    | some found => s.place i found
  | _, _ => s

/-- The index of the active marker is read before the search looks at whether there is one. -/
def menuMarkerSearchDirCb (below : Option Marker) (curve : Option Curve) (dir : SearchDir)
    (s : Marked R) : Option (Marked R) :=
  (s.read below s.active).map fun marker => markerSearchDir curve marker.index dir s

/-- The match itself is computed from the two fields it reads of the active marker. -/
def prepareLcMatch (below : Option Marker) (s : Marked R) : Option (Marked R) :=
  (s.read below s.active).map fun _ => s

structure Buttons where
  down : Bool
  up : Bool

def leverRound (i : Fin 8) (step : Nat) (status : Buttons) (s : Marked R) : Marked R :=
  let last : Int := s.vna.props.sweepPoints - 1
  let idx : Int := (s.marker i).index
  let idx := if status.down then max (idx - step / 8) 0 else idx
  let idx := if status.up then min (idx + step / 8) last else idx
  s.place i idx

def leverRounds (i : Fin 8) : Nat → List Buttons → Marked R → Marked R
  | _, [], s => s
  | step, status :: held, s => leverRounds i ((step + 1) % 65536) held (leverRound i step status s)

def leverMoveMarker (held : List Buttons) (s : Marked R) : Marked R :=
  match s.active with
  | none => s
  | some i => if (s.marker i).enabled then leverRounds i 8 held s else s

def markerPickupDistance : Int := 20

abbrev Distances := Nat → Int

def nearest (candidates : List (Int × α)) : Option α :=
  (candidates.foldl (fun (best : Int × Option α) c => if c.1 < best.1 then (c.1, some c.2) else best)
    (markerPickupDistance * markerPickupDistance, none)).2

def searchNearestIndex (points : Nat) (distances : Distances) : Option Nat :=
  nearest ((List.range points).map fun i => (distances i, i))

def dragMarker (s : Marked R) (touch : Distances) : Marked R :=
  match s.active, searchNearestIndex s.vna.props.sweepPoints touch with
  | some i, some index => if (s.marker i).index = index then s else s.place i index
  | _, _ => s

/-- A touch near an enabled marker on a shown trace picks it up and drags it until the release. -/
def touchPickupMarker (traces : List Distances) (drag : List Distances) (s : Marked R) :
    Marked R :=
  let candidates := traces.flatMap fun distances =>
    ((List.finRange 8).filter fun m => (s.marker m).enabled).map fun m =>
      (distances (s.marker m).index, m)
  match nearest candidates with
  | none => s
  | some i =>
    let s := if s.active = some i then s else { s with active := some i, previous := s.active }
    drag.foldl dragMarker s

/-- What changes the sweep, the markers or the references, and what reads the active marker. -/
inductive MarkerCall
  | sweepFrequency (type : StimulusType) (freq : UInt32) (enforceOrder : Bool)
  | sweepPoints (points : UInt16)
  | resetSweepFrequency
  | loadSnp (lines : List UInt32)
  | updateFrequencies
  | cmdMarker (argv : List Arg)
  | menuSelect (mk : Fin 8)
  | menuDisableAll
  | menuDeltaOrTracking
  | menuOp (op : MarkerOp)
  | menuSearchDir (curve : Option Curve) (dir : SearchDir)
  | search (curve : Option Curve)
  | measureIndex (i : Fin 8) (idx : UInt16)
  | lcMatch
  | lever (held : List Buttons)
  | touch (traces drag : List Distances)

def markerCall (board : Board) (below : Option Marker) (s : Marked R) :
    MarkerCall → Option (Marked R)
  | .sweepFrequency type freq enforceOrder =>
    some (s.withVna (setSweepFrequencyInternal type freq.toNat enforceOrder s.vna))
  | .sweepPoints points => some (s.withVna (setSweepPoints board points.toNat s.vna))
  | .resetSweepFrequency => some (s.withVna (resetSweepFrequency s.vna))
  | .loadSnp lines => some (s.withVna (loadSnp board (lines.map UInt32.toNat) s.vna))
  | .updateFrequencies => some (s.withVna (appMeasurementUpdateFrequencies s.vna))
  | .cmdMarker argv => some (cmdMarker argv s)
  | .menuSelect mk => some (menuMarkerSelAcb mk s)
  | .menuDisableAll => some (menuMarkerDisableAllCb s)
  | .menuDeltaOrTracking => some s
  | .menuOp op => menuMarkerOpCb below op s
  | .menuSearchDir curve dir => menuMarkerSearchDirCb below curve dir s
  | .search curve => some (markerSearch curve s)
  | .measureIndex i idx => some (s.place i idx.toNat)
  | .lcMatch => prepareLcMatch below s
  | .lever held => some (leverMoveMarker held s)
  | .touch traces drag => some (touchPickupMarker traces drag s)

end NanoVNA.Markers
