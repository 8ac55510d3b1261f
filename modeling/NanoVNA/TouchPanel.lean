import NanoVNA.PlotLayout

namespace NanoVNA.TouchPanel

open NanoVNA.DeviceState NanoVNA.PlotLayout

def touchThreshold : Nat := 2000

def calibrationOffset : Nat := 16

def touchMarkX : Nat := 4

def touchMarkY : Nat := 4

/-- `touch_remote` -/
inductive Remote
  | none
  | press
  | release
  deriving DecidableEq

inductive TouchEvent
  | none
  | down
  | pressed
  | released
  deriving DecidableEq

/-- What the converter gives in one call of `touch_check`: the test for a contact, the two
coordinates, and the test made again after them. -/
structure Reading where
  contact : Fin 4096
  y : Fin 4096
  x : Fin 4096
  again : Fin 4096

/-- `config._touch_cal` -/
structure TouchCal where
  x0 : Int16
  y0 : Int16
  x1 : Int16
  y1 : Int16
  deriving DecidableEq

/-- The last four fields are the static variables of `touch_position`. -/
structure State where
  lastTouchX : Int16
  lastTouchY : Int16
  lastTouchStatus : Bool
  touchRemote : Remote
  touchCal : TouchCal
  calCache : TouchCal
  scaleX : Int
  scaleY : Int
  scaleReady : Bool

/-- What comes in between two moments at which the thread of the user interface looks. -/
inductive Input
  | sample (r : Reading)
  | remote (press : Bool) (x y : Int16)

section Code

variable (board : Board)

def touched (r : Reading) : Bool := touchThreshold < r.contact

/-- The coordinates are kept when the panel is still touched after they were read. -/
def touchRead (r : Reading) (s : State) : State :=
  if touched r then
    let s :=
      if touchThreshold < r.again then
        { s with lastTouchX := Int16.ofNat r.x, lastTouchY := Int16.ofNat r.y }
      else s
    { s with touchRemote := .none }
  else s

def touchCheck (r : Reading) (s : State) : TouchEvent × State :=
  let s := touchRead r s
  let stat := touched r || s.touchRemote = .press
  if stat = s.lastTouchStatus then (if stat then .down else .none, s)
  else (if stat then .pressed else .released, { s with lastTouchStatus := stat })

/-- Only the larger board has a remote desktop. -/
def remoteTouchSet (press : Bool) (x y : Int16) (s : State) : State :=
  match board with
  | .f072 => s
  | .f303 =>
    { s with
      touchRemote := if press then .press else .release
      lastTouchX := if x = -1 then s.lastTouchX else x
      lastTouchY := if y = -1 then s.lastTouchY else y }

/-- Ends at the release, with the last of the inputs. -/
def touchWaitRelease : List Input → State → Option State
  | [], _ => none
  | .remote press x y :: rest, s => touchWaitRelease rest (remoteTouchSet board press x y s)
  | .sample r :: rest, s =>
    let (event, s) := touchCheck r s
    if event = .released then if rest.isEmpty then some s else none
    else touchWaitRelease rest s

/-- The two waits of `get_touch_point`, at the upper left and at the lower right mark. -/
def uiTouchCalExec (first second : List Input) (s : State) : Option State :=
  (touchWaitRelease board first s).bind fun s =>
    let s := { s with touchCal := { s.touchCal with x0 := s.lastTouchX, y0 := s.lastTouchY } }
    (touchWaitRelease board second s).map fun s =>
      { s with touchCal := { s.touchCal with x1 := s.lastTouchX, y1 := s.lastTouchY } }

variable (l : Layout)

def upperLeft : Nat × Nat := (calibrationOffset - touchMarkX, calibrationOffset - touchMarkY)

def lowerRight : Nat × Nat :=
  (l.lcdWidth - 1 - calibrationOffset - touchMarkX,
    l.lcdHeight - 1 - calibrationOffset - touchMarkY)

def scaleOf (size : Nat) (lo hi : Int16) : Int :=
  (((size : Int) - 1 - 2 * calibrationOffset) * 65536).tdiv (hi.toInt - lo.toInt)

def scalesOf (cal : TouchCal) : Int × Int :=
  if cal.x1.toInt - cal.x0.toInt ≠ 0 ∧ cal.y1.toInt - cal.y0.toInt ≠ 0 then
    (scaleOf l.lcdWidth cal.x0 cal.x1, scaleOf l.lcdHeight cal.y0 cal.y1)
  else (65536, 65536)

/-- The scales are made anew when the calibration is not the one they were made for. -/
def refreshScales (s : State) : State :=
  let s :=
    if s.scaleReady then s
    else { s with scaleX := 65536, scaleY := 65536, scaleReady := true }
  if s.calCache = s.touchCal then s
  else
    { s with
      calCache := s.touchCal
      scaleX := (scalesOf l s.touchCal).1
      scaleY := (scalesOf l s.touchCal).2 }

def onAxis (size : Nat) (scale : Int) (lo raw : Int16) : Int :=
  let t := scale * (raw.toInt - lo.toInt) / 65536 + calibrationOffset
  if t < 0 then 0 else if size ≤ t then size - 1 else t

def touchPosition (s : State) : (Int × Int) × State :=
  if s.touchRemote ≠ .none then ((s.lastTouchX.toInt, s.lastTouchY.toInt), s)
  else
    let s := refreshScales l s
    ((onAxis l.lcdWidth s.scaleX s.touchCal.x0 s.lastTouchX,
      onAxis l.lcdHeight s.scaleY s.touchCal.y0 s.lastTouchY), s)

/-- Besides what the panel does, the configuration may be loaded or cleared at any time. -/
inductive Event
  | input (i : Input)
  | position
  | configure (cal : TouchCal)
  | calibrate (first second : List Input)

def inputStep (s : State) : Input → State
  | .sample r => (touchCheck r s).2
  | .remote press x y => remoteTouchSet board press x y s

def step (s : State) : Event → Option State
  | .input i => some (inputStep board s i)
  | .position => some (touchPosition (layoutOf board) s).2
  | .configure cal => some { s with touchCal := cal }
  | .calibrate first second => uiTouchCalExec board first second s

def run (s : State) (events : List Event) : Option State := events.foldlM (step board) s

def defaultTouchConfig : TouchCal :=
  match board with
  | .f072 => ⟨530, 795, 3460, 3350⟩
  | .f303 => ⟨380, 665, 3600, 3450⟩

def initial : State where
  lastTouchX := 0
  lastTouchY := 0
  lastTouchStatus := false
  touchRemote := .none
  touchCal := defaultTouchConfig board
  calCache := ⟨0, 0, 0, 0⟩
  scaleX := 0
  scaleY := 0
  scaleReady := false

end Code

end NanoVNA.TouchPanel
