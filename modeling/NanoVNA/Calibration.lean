import Mathlib.Algebra.Order.Field.Basic
import NanoVNA.SweepGrid

namespace NanoVNA.Calibration

open NanoVNA.DeviceState NanoVNA.SweepGrid

variable {R : Type}

/-- `CAL_LOAD` to `CAL_ISOLN` -/
inductive Standard
  | load
  | open_
  | short
  | thru
  | isoln
  deriving DecidableEq, Repr

/-- `ETERM_ED` to `ETERM_EX` -/
inductive Term
  | ed
  | es
  | er
  | et
  | ex
  deriving DecidableEq, Repr

/-- Where a capture is kept in `cal_data`. -/
def Standard.cell : Standard → Fin 5
  | .load => 0
  | .open_ => 1
  | .short => 2
  | .thru => 3
  | .isoln => 4

/-- The argument of `cal_collect` for a standard. -/
def Standard.type (std : Standard) : Nat := std.cell

def Term.cell : Term → Fin 5
  | .ed => 0
  | .es => 1
  | .er => 2
  | .et => 3
  | .ex => 4

/-- One point of `cal_data`. -/
abbrev Point (R : Type) := Fin 5 → Sample R

/-- A loop over the first `n` points that works on each by itself. -/
def forPoints {α : Type} (body : α → α) : Nat → (Nat → α) → Nat → α
  | 0, data => data
  | n + 1, data =>
    let data := forPoints body n data
    Function.update data n (body (data n))

theorem forPoints_apply {α : Type} (body : α → α) (n : Nat) (data : Nat → α) (i : Nat) :
    forPoints body n data i = if i < n then body (data i) else data i := by
  induction n generalizing i with
  | zero => rfl
  | succ n ih =>
    simp only [forPoints]
    by_cases hi : i = n
    · rw [hi, Function.update_self, ih n, if_neg (Nat.lt_irrefl n), if_pos (Nat.lt_succ_self n)]
    · have hlt : i < n + 1 ↔ i < n := by omega
      rw [Function.update_of_ne hi, ih i]
      simp only [hlt]

section Formulas

variable [Field R] [LinearOrder R]

/-- `1e-20f` -/
def tiny : R := 1 / 10 ^ 20

def esOf (ed open_ short : Sample R) : Sample R :=
  let openR := open_.re - ed.re
  let openI := open_.im - ed.im
  let shortR := short.re - ed.re
  let shortI := short.im - ed.im
  let numR := openR + shortR
  let numI := openI + shortI
  let denR := openR - shortR
  let denI := openI - shortI
  let denom := denR * denR + denI * denI
  if tiny < denom then
    ⟨(numR * denR + numI * denI) / denom, (numI * denR - numR * denI) / denom⟩
  else ⟨0, 0⟩

def erOf (sign : Int) (ed es short : Sample R) : Sample R :=
  let s11sr := short.re - ed.re
  let s11si := short.im - ed.im
  let esr := if 0 < sign then -es.re else es.re
  let esi := if 0 < sign then -es.im else es.im
  let esr := 1 + esr
  let err := esr * s11sr - esi * s11si
  let eri := esr * s11si + esi * s11sr
  if sign < 0 then ⟨-err, -eri⟩ else ⟨err, eri⟩

def etOf (ex thru : Sample R) : Sample R :=
  let etr := thru.re - ex.re
  let eti := thru.im - ex.im
  let sq := etr * etr + eti * eti
  if tiny < sq then ⟨etr / sq, -eti / sq⟩ else ⟨1, 0⟩

end Formulas

section Terms

variable (p : Properties R)

/-- The loops of the error terms run over the points of the current sweep. -/
def mapPoints (body : Point R → Point R) : Properties R :=
  { p with calData := forPoints body p.sweepPoints p.calData }

def etermSet (term : Term) (re im : R) : Properties R :=
  mapPoints p fun c => Function.update c term.cell ⟨re, im⟩

def etermCopy (dst src : Standard) : Properties R :=
  { p with calData := fun i => Function.update (p.calData i) dst.cell (p.calData i src.cell) }

/-- Without a capture of SHORT that of OPEN takes its place. -/
def openAsShort : Properties R :=
  let p := etermCopy p .short .open_
  { p with calStatus := { p.calStatus with open_ := false } }

variable [Field R] [LinearOrder R]

def etermCalcEs : Properties R :=
  let p := mapPoints p fun c => Function.update c Term.es.cell
    (esOf (c Term.ed.cell) (c Standard.open_.cell) (c Standard.short.cell))
  { p with calStatus := { p.calStatus with open_ := false, es := true } }

def etermCalcEr (sign : Int) : Properties R :=
  let p := mapPoints p fun c => Function.update c Term.er.cell
    (erOf sign (c Term.ed.cell) (c Term.es.cell) (c Standard.short.cell))
  { p with calStatus := { p.calStatus with short := false, er := true } }

def etermCalcEt : Properties R :=
  let p := mapPoints p fun c => Function.update c Term.et.cell
    (etOf (c Term.ex.cell) (c Standard.thru.cell))
  { p with calStatus := { p.calStatus with thru := false, et := true } }

end Terms

section Collect

/-- `set_flag` of `calibration_set` -/
def setFlag (st : CalStatus) : Standard → CalStatus
  | .load => { st with load := true }
  | .open_ => { st with open_ := true }
  | .short => { st with short := true }
  | .thru => { st with thru := true }
  | .isoln => { st with isoln := true }

/-- `clr_flag` of `calibration_set` -/
def clrFlag (st : CalStatus) : Standard → CalStatus
  | .load => { st with apply := false }
  | .open_ => { st with es := false, er := false, apply := false }
  | .short => { st with es := false, er := false, apply := false }
  | .thru => { st with et := false, apply := false }
  | .isoln => { st with apply := false }

def Standard.src : Standard → Fin 2
  | .load => 0
  | .open_ => 0
  | .short => 0
  | .thru => 1
  | .isoln => 1

def calibrationSet : List Standard := [.load, .open_, .short, .thru, .isoln]

/-- A sweep that is not the calibrated one starts the calibration anew. -/
def renewGrid (p : Properties R) : Properties R :=
  let range := sweepGetOrdered p
  if needInterpolate p range.1 range.2 p.sweepPoints then
    { p with calStatus := .zero, calFrequency0 := range.1, calFrequency1 := range.2,
             calSweepPoints := p.sweepPoints }
  else p

/-- `measured` is what the sweep of the collection leaves in the two channels. -/
def collectStandard (std : Standard) (measured : Fin 2 → Nat → Sample R) (p : Properties R) :
    Properties R :=
  let p := renewGrid p
  { p with
    calPower := p.power
    calStatus := setFlag (clrFlag p.calStatus std) std
    calData := fun i => Function.update (p.calData i) std.cell (measured std.src i) }

def calCollect (type : Nat) (measured : Fin 2 → Nat → Sample R) (s : Vna R) : Vna R :=
  match calibrationSet[type]? with
  | none => s
  | some std => { s with props := collectStandard std measured s.props }

end Collect

section Done

variable [Field R] [LinearOrder R] (p : Properties R)

def doneDirectivity : Properties R := if p.calStatus.load then p else etermSet p .ed 0 0

def doneIsolation : Properties R := if p.calStatus.isoln then p else etermSet p .ex 0 0

def doneReflection : Properties R :=
  if p.calStatus.short ∧ p.calStatus.open_ then etermCalcEr (etermCalcEs p) (-1)
  else if p.calStatus.open_ then etermCalcEr (etermSet (openAsShort p) .es 0 0) 1
  else if p.calStatus.short then etermCalcEr (etermSet p .es 0 0) (-1)
  else p

def doneTransmission : Properties R := if p.calStatus.thru then etermCalcEt p else p

def doneDefaults : Properties R :=
  let p := if p.calStatus.et then p else etermSet p .et 1 0
  let p := if p.calStatus.er then p else etermSet p .er 1 0
  if p.calStatus.es then p else etermSet p .es 0 0

def calDone (s : Vna R) : Vna R :=
  let p := doneDefaults (doneTransmission (doneReflection (doneIsolation (doneDirectivity s.props))))
  { s with props := { p with calStatus := { p.calStatus with apply := true } }
           lastsaveid := noSaveSlot }

end Done

structure Data (R : Type) where
  s11 : Sample R
  s21 : Sample R
  deriving DecidableEq, Repr

section Correction

variable [Field R] [LinearOrder R]

def applyCh0ErrorTerm (data : Data R) (c : Point R) : Data R :=
  let s11mr := data.s11.re - (c Term.ed.cell).re
  let s11mi := data.s11.im - (c Term.ed.cell).im
  let err := (c Term.er.cell).re + s11mr * (c Term.es.cell).re - s11mi * (c Term.es.cell).im
  let eri := (c Term.er.cell).im + s11mr * (c Term.es.cell).im + s11mi * (c Term.es.cell).re
  let sq := err * err + eri * eri
  if sq ≠ 0 then
    let inv := 1 / sq
    { data with s11 := ⟨(s11mr * err + s11mi * eri) * inv, (s11mi * err - s11mr * eri) * inv⟩ }
  else { data with s11 := ⟨0, 0⟩ }

def applyCh1ErrorTerm (calStatus : CalStatus) (data : Data R) (c : Point R) : Data R :=
  let s21mr := data.s21.re - (c Term.ex.cell).re
  let s21mi := data.s21.im - (c Term.ex.cell).im
  let re := s21mr * (c Term.et.cell).re - s21mi * (c Term.et.cell).im
  let im := s21mi * (c Term.et.cell).re + s21mr * (c Term.et.cell).im
  if calStatus.enhancedResponse then
    let esr := 1 - ((c Term.es.cell).re * data.s11.re - (c Term.es.cell).im * data.s11.im)
    let esi := 0 - ((c Term.es.cell).im * data.s11.re + (c Term.es.cell).re * data.s11.im)
    { data with s21 := ⟨esr * re - esi * im, esi * re + esr * im⟩ }
  else { data with s21 := ⟨re, im⟩ }

/-- The corrections of one point, in the order of a sweep over both channels. -/
def correct (calStatus : CalStatus) (data : Data R) (c : Point R) : Data R :=
  applyCh1ErrorTerm calStatus (applyCh0ErrorTerm data c) c

end Correction

/-- `load_default_properties` on cleared memory, and the grid that follows from it. -/
def defaultVna (R : Type) [Zero R] (board : Board) : Vna R where
  props :=
    { frequency0 := 50000, frequency1 := 900000000, calFrequency0 := 50000
      calFrequency1 := 900000000, varFreq := 0, centerSpan := false
      sweepPoints := sweepPointsMax board, power := 255, calPower := 255
      calSweepPoints := sweepPointsMax board, calStatus := .zero
      markers := fun i => ⟨i = 0, 10 * (i + 1) * sweepPointsMax board / 100 - 1, 0⟩
      calData := fun _ _ => ⟨0, 0⟩ }
  grid := appMeasurementSetFrequencies 50000 900000000 (sweepPointsMax board)
  lastsaveid := noSaveSlot
  slots := fun _ => none

end NanoVNA.Calibration
