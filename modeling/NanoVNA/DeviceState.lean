namespace NanoVNA.DeviceState

inductive Board
  | f072
  | f303
  deriving DecidableEq, Repr

def sweepPointsMax : Board → Nat
  | .f072 => 101
  | .f303 => 401

def sweepPointsMin : Nat := 21

def frequencyMin : Nat := 600

def frequencyMax : Nat := 2700000000

def noSaveSlot : Nat := 65535

structure Sample (R : Type) where
  re : R
  im : R
  deriving DecidableEq, Repr

structure Marker where
  enabled : Bool
  index : Nat
  frequency : Nat
  deriving DecidableEq, Repr

/-- The bits of `_cal_status`; `CALSTAT_ED` is `load` and `CALSTAT_EX` is `isoln`. -/
structure CalStatus where
  load : Bool
  open_ : Bool
  short : Bool
  thru : Bool
  isoln : Bool
  es : Bool
  er : Bool
  et : Bool
  apply : Bool
  interpolated : Bool
  enhancedResponse : Bool
  deriving DecidableEq, Repr

def CalStatus.zero : CalStatus :=
  ⟨false, false, false, false, false, false, false, false, false, false, false⟩

/-- The part of `properties_t` the modelled functions use. The captures and the error terms
of a point share the five cells of `calData`. -/
structure Properties (R : Type) where
  frequency0 : Nat
  frequency1 : Nat
  calFrequency0 : Nat
  calFrequency1 : Nat
  varFreq : Nat
  centerSpan : Bool
  sweepPoints : Nat
  power : Nat
  calPower : Nat
  calSweepPoints : Nat
  calStatus : CalStatus
  markers : Fin 8 → Marker
  calData : Nat → Fin 5 → Sample R

section Updates

variable {R : Type} (p : Properties R)

def Properties.withRange (centerSpan : Bool) (frequency0 frequency1 : Nat) : Properties R :=
  { p with centerSpan := centerSpan, frequency0 := frequency0, frequency1 := frequency1 }

variable (centerSpan : Bool) (f0 f1 : Nat)

@[simp] theorem withRange_frequency0 : (p.withRange centerSpan f0 f1).frequency0 = f0 := rfl

@[simp] theorem withRange_frequency1 : (p.withRange centerSpan f0 f1).frequency1 = f1 := rfl

@[simp] theorem withRange_sweepPoints :
    (p.withRange centerSpan f0 f1).sweepPoints = p.sweepPoints := rfl

end Updates

structure Grid where
  fStart : Nat
  fDelta : Nat
  fError : Nat
  fPoints : Nat
  deriving DecidableEq, Repr

/-- The active properties, the frequency grid in use and the slots in flash; a slot whose
image fails the magic or the checksum test is `none`. -/
structure Vna (R : Type) where
  props : Properties R
  grid : Grid
  lastsaveid : Nat
  slots : Nat → Option (Properties R)

end NanoVNA.DeviceState
