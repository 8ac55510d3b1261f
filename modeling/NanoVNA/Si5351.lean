import NanoVNA.Convergents
import NanoVNA.Si5351Registers
import NanoVNA.BandSelection

namespace NanoVNA.Si5351

open NanoVNA.Word32 NanoVNA.DeviceState NanoVNA.BandStrategy NanoVNA.BandSelection
  NanoVNA.Si5351Registers

def xtalfreq : Nat := 26000000

def clk2Frequency : Nat := 8000000

def pllN2 : Nat := 32

def clkPowerdown : Nat := 128

def clkIntegerMode : Nat := 64

def clkPllSelectA : Nat := 0

def clkPllSelectB : Nat := 32

def clkInputMultisynthN : Nat := 12

def divby4 : Nat := 12

def driveStrength2ma : Nat := 0

def driveStrength8ma : Nat := 3

def ofreqChannel : Nat := 0

def freqChannel : Nat := 1

def audioCodecChannel : Nat := 2

def maxDenominator : Nat := 2 ^ 20 - 1

section Ratios

/-! `wrap` is what the processor does with a product or a quotient that may not fit 32 bits; the
firmware runs with `u32`. -/

variable (wrap : Nat → Nat)

/-- The loop of `approximate_fraction`. The remainder shrinks, so it bounds the rounds. -/
def approximateLoop : Nat → Convergents.State → Nat × Nat
  | 0, s => (s.p1, s.q1)
  | fuel + 1, s =>
    if s.den = 0 then (s.p1, s.q1)
    else
      let a := s.num / s.den
      let q2 := wrap (s.q0 + wrap (a * s.q1))
      if maxDenominator < q2 then (s.p1, s.q1)
      else
        let p2 := wrap (s.p0 + wrap (a * s.p1))
        approximateLoop fuel ⟨s.den, s.num % s.den, s.p1, s.q1, p2, q2⟩

def approximateFraction (n d : Nat) : Nat × Nat :=
  if maxDenominator < d then approximateLoop wrap d (Convergents.start n d) else (n, d)

/-- The calls of `si5351_set_frequency` that reach the chip, with the arguments they get. -/
inductive Call
  | setupPll (pllSource mult num denom : Nat)
  | setupMultisynth (channel div num denom rdiv chctrl : Nat)
  deriving DecidableEq, Repr

def si5351SetFrequencyFixedpll (channel pllfreq freq rdiv chctrl : Nat) : Call :=
  let approx := approximateFraction wrap (pllfreq % freq) freq
  .setupMultisynth channel (wrap (pllfreq / freq)) approx.1 approx.2 rdiv chctrl

def si5351SetupPllFreq (s : Setup) (pllSource pllfreq div : Nat) : Call :=
  let xtal := wrap (s.xtalFreq * div)
  let approx := approximateFraction wrap (pllfreq % xtal) xtal
  .setupPll pllSource (wrap (pllfreq / xtal)) approx.1 approx.2

/-- Drive strengths above 8 mA mean that the band chooses. -/
def driveOf (driveStrength automatic : Nat) : Nat :=
  if driveStrength8ma < driveStrength then automatic else driveStrength

def fixedPllCalls (s : Setup) (currentBand : Nat) (p : Prepared) : List Call :=
  let b := s.bandS.row p.band
  let ds := driveOf p.driveStrength b.pow
  let ods := driveOf p.driveStrength b.opow
  (if currentBand ≠ p.band then
    [.setupPll regPllA b.div 0 1, .setupPll regPllB pllN2 0 1,
      si5351SetFrequencyFixedpll wrap audioCodecChannel (wrap (s.xtalFreq * pllN2)) clk2Frequency
        0 (driveStrength2ma ||| clkPllSelectB)]
  else []) ++
  [si5351SetFrequencyFixedpll wrap ofreqChannel (b.omul * s.xtalFreq * b.div) p.ofreq p.rdiv
      (ods ||| clkPllSelectA),
    si5351SetFrequencyFixedpll wrap freqChannel (b.mul * s.xtalFreq * b.div) p.freq p.rdiv
      (ds ||| clkPllSelectA)]

def fixedMultCalls (s : Setup) (currentBand : Nat) (p : Prepared) : List Call :=
  let b := s.bandS.row p.band
  let ds := driveOf p.driveStrength b.pow
  let ods := driveOf p.driveStrength b.opow
  [si5351SetupPllFreq wrap s regPllA (p.ofreq * b.div) b.omul,
    si5351SetupPllFreq wrap s regPllB (p.freq * b.div) b.mul] ++
  (if (s.bandS.row currentBand).div ≠ b.div then
    [.setupMultisynth ofreqChannel b.div 0 1 0 (ods ||| clkPllSelectA),
      .setupMultisynth freqChannel b.div 0 1 0 (ds ||| clkPllSelectB)]
  else []) ++
  [si5351SetFrequencyFixedpll wrap audioCodecChannel (p.freq * b.div)
    (wrap (clk2Frequency * b.mul)) 0 (driveStrength2ma ||| clkPllSelectB)]

def programCalls (s : Setup) (currentBand : Nat) (p : Prepared) : List Call :=
  match (s.bandS.row p.band).mode with
  | .fixedPll => fixedPllCalls wrap s currentBand p
  | .fixedMult => fixedMultCalls wrap s currentBand p
  | .none => []

end Ratios

/-- The static variables of the driver, the configuration it reads, the registers of the chip
and the gains set in the codec. -/
structure Driver where
  setup : Setup
  currentBand : Nat
  currentPower : Nat
  currentFreq : Nat
  pendingSettlingCycles : Nat
  clkCache : Nat → Nat
  regs : Registers
  gain : Nat × Nat

/-- The value `si5351_set_frequency` returns, named by the constant it comes from. -/
inductive Delay
  | zero
  | channelChange
  | band12
  | band34
  | bandchange
  deriving DecidableEq, Repr

def si5351ResetCache (d : Driver) : Driver := { d with currentBand := 0, currentFreq := 0 }

def si5351SetupPll (pllSource mult num denom : Nat) (d : Driver) : Driver :=
  { d with regs :=
      bulkWrite (pllSource :: dividerBytes (dividerOf u32 mult num denom) 0) d.regs }

def multisynthBytes (div num denom rdiv : Nat) : List Nat :=
  if div = 4 then dividerBytes ⟨0, 0, 1⟩ (rdiv ||| divby4)
  else dividerBytes (dividerOf u32 div num denom) rdiv

def clkControl (div num chctrl : Nat) : Nat :=
  let num := if div = 4 then num else u32 (num * 128)
  let chctrl := chctrl ||| clkInputMultisynthN
  if num = 0 then chctrl ||| clkIntegerMode else chctrl

/-- The control register is written only when the cache says it changes. -/
def writeClkControl (channel chctrl : Nat) (d : Driver) : Driver :=
  if d.clkCache channel ≠ chctrl then
    { d with
      regs := write (regClk0Control + channel) chctrl d.regs
      clkCache := fun ch => if ch = channel then chctrl else d.clkCache ch }
  else d

def si5351SetupMultisynth (channel div num denom rdiv chctrl : Nat) (d : Driver) : Driver :=
  writeClkControl channel (clkControl div num chctrl)
    { d with regs :=
        bulkWrite (msregBase channel :: multisynthBytes div num denom rdiv) d.regs }

def Call.run : Call → Driver → Driver
  | .setupPll pllSource mult num denom => si5351SetupPll pllSource mult num denom
  | .setupMultisynth channel div num denom rdiv chctrl =>
    si5351SetupMultisynth channel div num denom rdiv chctrl

def si5351ResetPll (mask : Nat) (d : Driver) : Driver :=
  { d with regs := write regPllReset (mask ||| 0x0C) d.regs }

/-- A change of the power drops the caches before they are looked at. -/
def selectPower (driveStrength : Nat) (d : Driver) : Driver :=
  if d.currentPower ≠ driveStrength then
    { si5351ResetCache d with currentPower := driveStrength }
  else d

def setGain (band : Nat) (d : Driver) : Driver :=
  let b := d.setup.bandS.row band
  let c := d.setup.bandS.row d.currentBand
  if c.lGain ≠ b.lGain ∨ c.rGain ≠ b.rGain then { d with gain := (b.lGain, b.rGain) } else d

def bandDelay : BandMode → Delay
  | .fixedPll => .band12
  | .fixedMult => .band34
  | .none => .zero

def runCalls (calls : List Call) (d : Driver) : Driver := calls.foldl (fun d c => c.run d) d

/-- The part of `si5351_set_frequency` after the early return. -/
def program (p : Prepared) (d : Driver) : Driver × Delay :=
  let changed := d.currentBand ≠ p.band
  let gained := if changed then setGain p.band d else d
  let called := runCalls (programCalls u32 d.setup d.currentBand p) gained
  let settled :=
    if changed then
      { si5351ResetPll (32 ||| 128) called with
        pendingSettlingCycles := 1, currentBand := p.band }
    else called
  ({ settled with currentFreq := p.freq },
    if changed then .bandchange else bandDelay (d.setup.bandS.row p.band).mode)

/-- `none` is a read past the end of the band table: for a frequency no row reaches, or for a
current band that a longer table had. -/
def si5351SetFrequency (freq driveStrength : Nat) (d : Driver) : Option (Driver × Delay) :=
  if freq = 0 then some (d, .zero)
  else (prepare d.setup freq driveStrength).bind fun p =>
    let d := selectPower p.driveStrength d
    if p.freq = d.currentFreq then some (d, .channelChange)
    else if d.currentBand < d.setup.bandS.rows.length then some (program p d)
    else none

def si5351SetPower (driveStrength : Nat) (d : Driver) : Option Driver :=
  if driveStrength = d.currentPower then some d
  else (si5351SetFrequency d.currentFreq driveStrength d).map Prod.fst

def si5351SetBandMode (board : Board) (mode : Nat) (d : Driver) : Option Driver :=
  (bandTables board)[mode]?.map fun t => { d with setup := { d.setup with bandS := t } }

def sanitizeXtal (xtal : Nat) : XtalFreq :=
  if h : xtal < xtalfreq - 2000000 ∨ xtalfreq + 2000000 < xtal then
    ⟨xtalfreq, by decide, by decide⟩
  else ⟨xtal, by simp only [xtalfreq] at h; omega, by simp only [xtalfreq] at h; omega⟩

def si5351SetTcxo (xtal : Nat) (d : Driver) : Driver :=
  si5351ResetCache { d with setup := { d.setup with xtalFreq := sanitizeXtal xtal } }

def clampIfOffset (offset : Int) : IfOffset :=
  ⟨(max 4000 (min offset 96000)).toNat, by omega, by omega⟩

def si5351SetFrequencyOffset (offset : Int) (d : Driver) : Driver :=
  { si5351ResetCache d with setup := { d.setup with ifOffset := clampIfOffset offset } }

def si5351DisableOutput (d : Driver) : Driver :=
  let regs := write regOutputEnableControl 7 d.regs
  si5351ResetCache { d with
    regs := bulkWrite [regClk0Control, clkPowerdown, clkPowerdown, clkPowerdown] regs }

def si5351EnableOutput (d : Driver) : Driver :=
  si5351ResetCache { d with regs := write regOutputEnableControl 248 d.regs }

def si5351Configs : List (List Nat) :=
  [[regOutputEnableControl, 0xff],
    [regClk0Control, clkPowerdown, clkPowerdown, clkPowerdown],
    [regCrystalLoad, 64],
    [regOutputEnableControl, 248]]

def si5351Init (board : Board) (bandMode : Nat) (d : Driver) : Option Driver :=
  let configured := { d with regs := si5351Configs.foldl (fun r buf => bulkWrite buf r) d.regs }
  (si5351SetBandMode board bandMode configured).bind fun d =>
    (si5351SetFrequency xtalfreq 0 d).map Prod.fst

/-- The driver before `si5351_init`, on a chip with any register contents. -/
def powerUp (setup : Setup) (regs : Registers) : Driver where
  setup := setup
  currentBand := 0
  currentPower := 0
  currentFreq := 0
  pendingSettlingCycles := 0
  clkCache := fun _ => 0
  regs := regs
  gain := (0, 0)

end NanoVNA.Si5351
