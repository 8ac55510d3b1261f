import NanoVNA.Calibration
import NanoVNA.BandSelection

namespace NanoVNA.SweepPoint

open NanoVNA.Word32 NanoVNA.DeviceState NanoVNA.SweepGrid NanoVNA.Calibration NanoVNA.BandStrategy
open NanoVNA.BandSelection

variable {R : Type}

/-- `SWEEP_CH0_MEASURE` to `SWEEP_USE_RENORMALIZATION` -/
structure SweepMask where
  ch0Measure : Bool
  ch1Measure : Bool
  applyEdelayS11 : Bool
  applyEdelayS21 : Bool
  applyS21Offset : Bool
  applyCalibration : Bool
  useInterpolation : Bool
  useRenormalization : Bool
  deriving DecidableEq, Repr

def SweepMask.zero : SweepMask := ⟨false, false, false, false, false, false, false, false⟩

def SweepMask.requests (mask : SweepMask) (ch : Fin 2) : Bool :=
  if ch = 0 then mask.ch0Measure else mask.ch1Measure

theorem channel_cases (ch : Fin 2) : ch = 0 ∨ ch = 1 := by omega

/-- What a sweep reads and does not write. `response` is what the sample function makes of a
capture at a frequency and on a channel; the mathematical functions are parameters. -/
structure Config (R : Type) where
  board : Board
  props : Properties R
  grid : Grid
  setup : Setup
  mask : SweepMask
  electricalDelayS11 : R
  electricalDelayS21 : R
  s21Offset : R
  sinCos : R → R × R
  expf : R → R
  ln10 : R
  response : Nat → Fin 2 → Sample R

variable [Field R] [LinearOrder R] (cfg : Config R)

def applyEdelay (w : R) (x : Sample R) : Sample R :=
  let (s, c) := cfg.sinCos w
  ⟨x.re * c - x.im * s, x.im * c + x.re * s⟩

def applyOffset (x : Sample R) (offset : R) : Sample R := ⟨x.re * offset, x.im * offset⟩

/-- `ctx.offset` -/
def sweepOffset : R :=
  if cfg.mask.applyS21Offset then cfg.expf (cfg.s21Offset * (cfg.ln10 / 20)) else 1

/-- One cell of two neighbouring points, extended by `k`. -/
def blend (k : R) (a b : Sample R) : Sample R :=
  ⟨a.re + k * (b.re - a.re), a.im + k * (b.im - a.im)⟩

/-- Where a frequency between the ends of the calibration falls: the point below it, the
frequencies of that point and of the next one. -/
structure Bracket where
  idx : Nat
  srcF0 : Nat
  srcF1 : Nat

def bracket (p : Properties R) (f : Nat) : Bracket :=
  let srcPoints := sub32 p.calSweepPoints 1 % 65536
  let span := sub32 p.calFrequency1 p.calFrequency0
  let idx := sub32 f p.calFrequency0 * srcPoints / span
  let v := span * idx + srcPoints / 2
  ⟨idx, u32 (p.calFrequency0 + v / srcPoints), u32 (p.calFrequency0 + (v + span) / srcPoints)⟩

/-- The index and the weight to interpolate with; next to a change of the harmonic the other
neighbour on the same side takes part, and without one there is no interpolation. -/
def sameHarmonic (f : Nat) (b : Bracket) (k : R) : Nat × Option R :=
  let hf0 := si5351GetHarmonicLvl cfg.setup b.srcF0
  if hf0 = si5351GetHarmonicLvl cfg.setup b.srcF1 then (b.idx, some k)
  else if hf0 = si5351GetHarmonicLvl cfg.setup f then
    if b.idx < 1 then (b.idx, none) else (b.idx - 1, some (k + 1))
  else if sub32 cfg.props.calSweepPoints 1 % 65536 - 1 ≤ b.idx then (b.idx, none)
  else (b.idx + 1, some (k - 1))

/-- `idx` is `none` where the source passes −1. -/
def calInterpolate (idx : Option Nat) (f : Nat) : Point R :=
  let p := cfg.props
  match idx with
  | some idx => p.calData idx
  | none =>
    if f ≤ p.calFrequency0 then p.calData 0
    else if p.calFrequency1 ≤ f then p.calData (sub32 p.calSweepPoints 1 % 65536)
    else
      let b := bracket p f
      let delta := sub32 b.srcF1 b.srcF0
      if f = b.srcF0 then p.calData b.idx
      else
        let k : R := if delta = 0 then 0 else (sub32 f b.srcF0 : R) / delta
        match sameHarmonic cfg f b k with
        | (idx, none) => p.calData idx
        | (idx, some k) => fun cell => blend k (p.calData idx cell) (p.calData (idx + 1) cell)

/-- The part of `fsm_process` that works on the buffer in the last cycle of a point, for the
reflection channel. -/
def processCh0 (frequency : Nat) (c : Point R) (data : Data R) : Data R :=
  let data := if cfg.mask.applyCalibration then applyCh0ErrorTerm data c else data
  if cfg.mask.applyEdelayS11 then
    { data with s11 := applyEdelay cfg (cfg.electricalDelayS11 * frequency) data.s11 }
  else data

/-- The same for the transmission channel; the buffer still holds the other one. -/
def processCh1 (frequency : Nat) (c : Point R) (offset : R) (data : Data R) : Data R :=
  let data := if cfg.mask.applyCalibration then applyCh1ErrorTerm cfg.props.calStatus data c else data
  let data :=
    if cfg.mask.applyEdelayS21 then
      { data with s21 := applyEdelay cfg (cfg.electricalDelayS21 * frequency) data.s21 }
    else data
  if cfg.mask.applyS21Offset then { data with s21 := applyOffset data.s21 offset } else data

def processChannel (ch : Fin 2) (frequency : Nat) (c : Point R) (offset : R) (data : Data R) :
    Data R :=
  if ch = 0 then processCh0 cfg frequency c data else processCh1 cfg frequency c offset data

def half (ch : Fin 2) (data : Data R) : Sample R := if ch = 0 then data.s11 else data.s21

def setHalf (ch : Fin 2) (x : Sample R) (data : Data R) : Data R :=
  if ch = 0 then { data with s11 := x } else { data with s21 := x }

section Values

variable (i : Nat)

def pointFrequency : Nat := getFrequency cfg.grid i

def pointIndex : Option Nat := if cfg.mask.useInterpolation then none else some i

def pointTerms : Point R := calInterpolate cfg (pointIndex cfg i) (pointFrequency cfg i)

/-- What the reflection half of the buffer holds once its channel is done; without that channel
it still holds what it held before the point. -/
def pointS11 (before : Sample R) : Sample R :=
  if cfg.mask.ch0Measure then
    (processCh0 cfg (pointFrequency cfg i) (pointTerms cfg i)
      ⟨cfg.response (pointFrequency cfg i) 0, before⟩).s11
  else before

/-- The value a channel of a point gets, when the reflection half of the buffer held `before` at
the start of the point. -/
def pointValue (before : Sample R) (ch : Fin 2) : Sample R :=
  if ch = 0 then pointS11 cfg i before
  else
    (processCh1 cfg (pointFrequency cfg i) (pointTerms cfg i) (sweepOffset cfg)
      ⟨pointS11 cfg i before, cfg.response (pointFrequency cfg i) 1⟩).s21

end Values

section Buffer

variable (frequency : Nat) (c : Point R)

theorem processCh0_terms {c' : Point R} (h : cfg.mask.applyCalibration = true → c = c')
    (d : Data R) : processCh0 cfg frequency c d = processCh0 cfg frequency c' d := by
  unfold processCh0
  by_cases hcal : cfg.mask.applyCalibration = true
  · rw [h hcal]
  · simp only [hcal, if_false, Bool.false_eq_true]

omit [LinearOrder R] in
theorem processCh1_terms {c' : Point R} (h : cfg.mask.applyCalibration = true → c = c')
    (offset : R) (d : Data R) :
    processCh1 cfg frequency c offset d = processCh1 cfg frequency c' offset d := by
  unfold processCh1
  by_cases hcal : cfg.mask.applyCalibration = true
  · rw [h hcal]
  · simp only [hcal, if_false, Bool.false_eq_true]

theorem processCh0_s11 {d e : Data R} (h : d.s11 = e.s11) :
    (processCh0 cfg frequency c d).s11 = (processCh0 cfg frequency c e).s11 := by
  have hterm : (applyCh0ErrorTerm d c).s11 = (applyCh0ErrorTerm e c).s11 := by
    unfold applyCh0ErrorTerm
    rw [h]
    dsimp only
    split <;> rfl
  unfold processCh0
  by_cases hcal : cfg.mask.applyCalibration <;> by_cases hdelay : cfg.mask.applyEdelayS11
  · simp only [hcal, hdelay, if_true, hterm]
  · simp only [hcal, hdelay, if_true, if_false, Bool.false_eq_true, hterm]
  · simp only [hcal, hdelay, if_true, if_false, Bool.false_eq_true, h]
  · simp only [hcal, hdelay, if_false, Bool.false_eq_true, h]

omit [LinearOrder R] in
theorem applyCh1_s11 (st : CalStatus) (d : Data R) : (applyCh1ErrorTerm st d c).s11 = d.s11 := by
  unfold applyCh1ErrorTerm
  dsimp only
  split <;> rfl

omit [LinearOrder R] in
theorem processCh1_s11 (offset : R) (d : Data R) :
    (processCh1 cfg frequency c offset d).s11 = d.s11 := by
  unfold processCh1
  by_cases hcal : cfg.mask.applyCalibration <;> by_cases hdelay : cfg.mask.applyEdelayS21 <;>
    by_cases hoffset : cfg.mask.applyS21Offset <;>
    simp only [hcal, hdelay, hoffset, if_true, if_false, Bool.false_eq_true, applyCh1_s11]

end Buffer

end NanoVNA.SweepPoint
