import NanoVNA.DeviceState
import NanoVNA.Numerals

namespace NanoVNA.BandStrategy

open NanoVNA.DeviceState

inductive BandMode
  | none
  | fixedPll
  | fixedMult
  deriving DecidableEq, Repr

/-- A row of a band table. `div` is the byte the source also calls `pll_n`; a `freq` below 20
counts multiples of the harmonic threshold. -/
structure Band where
  freq : Nat
  mode : BandMode
  div : Nat
  mul : Nat
  omul : Nat
  pow : Nat
  opow : Nat
  lGain : Nat
  rGain : Nat
  deriving DecidableEq, Repr

def bandStrategy33hSi5351 : List Band :=
  [⟨0, .none, 0, 0, 0, 15, 15, 255, 255⟩,
    ⟨26000, .fixedPll, 8, 1, 1, 0, 0, 0, 0⟩,
    ⟨100000000, .fixedPll, 32, 1, 1, 0, 0, 0, 0⟩,
    ⟨130000000, .fixedMult, 8, 1, 1, 3, 2, 0, 0⟩,
    ⟨180000000, .fixedMult, 6, 1, 1, 3, 2, 0, 0⟩,
    ⟨1, .fixedMult, 4, 1, 1, 3, 2, 0, 0⟩,
    ⟨460000000, .fixedMult, 6, 3, 5, 3, 2, 40, 40⟩,
    ⟨600000000, .fixedMult, 4, 3, 5, 3, 2, 40, 40⟩,
    ⟨3, .fixedMult, 4, 3, 5, 3, 2, 50, 50⟩,
    ⟨1200000000, .fixedMult, 4, 5, 7, 3, 2, 70, 70⟩,
    ⟨5, .fixedMult, 4, 5, 7, 3, 2, 70, 70⟩,
    ⟨1800000000, .fixedMult, 4, 7, 9, 3, 3, 70, 70⟩,
    ⟨7, .fixedMult, 4, 7, 9, 3, 3, 70, 70⟩,
    ⟨2400000000, .fixedMult, 4, 9, 11, 3, 3, 85, 85⟩,
    ⟨9, .fixedMult, 4, 9, 11, 3, 3, 95, 95⟩,
    ⟨11, .fixedMult, 4, 11, 12, 3, 3, 95, 95⟩]

def bandStrategyH4Si5351 : List Band :=
  [⟨0, .none, 0, 0, 0, 15, 15, 255, 255⟩,
    ⟨26000, .fixedPll, 8, 1, 1, 0, 0, 0, 0⟩,
    ⟨100000000, .fixedPll, 32, 1, 1, 0, 0, 0, 0⟩,
    ⟨130000000, .fixedMult, 8, 1, 1, 1, 1, 0, 0⟩,
    ⟨180000000, .fixedMult, 6, 1, 1, 1, 1, 0, 0⟩,
    ⟨1, .fixedMult, 4, 1, 1, 1, 1, 0, 0⟩,
    ⟨460000000, .fixedMult, 6, 3, 5, 1, 1, 40, 40⟩,
    ⟨600000000, .fixedMult, 4, 3, 5, 1, 1, 40, 40⟩,
    ⟨3, .fixedMult, 4, 3, 5, 3, 1, 50, 50⟩,
    ⟨1200000000, .fixedMult, 4, 5, 7, 3, 2, 70, 70⟩,
    ⟨5, .fixedMult, 4, 5, 7, 3, 2, 70, 70⟩,
    ⟨1800000000, .fixedMult, 4, 7, 9, 3, 3, 70, 70⟩,
    ⟨7, .fixedMult, 4, 7, 9, 3, 3, 70, 70⟩,
    ⟨2400000000, .fixedMult, 4, 9, 11, 3, 3, 85, 85⟩,
    ⟨9, .fixedMult, 4, 9, 11, 3, 3, 95, 95⟩,
    ⟨11, .fixedMult, 4, 11, 12, 3, 3, 95, 95⟩]

def bandStrategy36hMs5351 : List Band :=
  [⟨0, .none, 0, 0, 0, 15, 15, 255, 255⟩,
    ⟨26000, .fixedPll, 16, 1, 1, 0, 0, 0, 0⟩,
    ⟨120000000, .fixedPll, 32, 1, 1, 0, 0, 0, 0⟩,
    ⟨1, .fixedMult, 4, 1, 1, 1, 1, 0, 0⟩,
    ⟨400000000, .fixedMult, 8, 3, 5, 3, 2, 20, 20⟩,
    ⟨588000000, .fixedMult, 6, 3, 5, 3, 2, 20, 20⟩,
    ⟨3, .fixedMult, 4, 3, 5, 3, 2, 30, 30⟩,
    ⟨5, .fixedMult, 4, 5, 7, 3, 2, 60, 60⟩,
    ⟨7, .fixedMult, 4, 7, 9, 3, 3, 75, 75⟩,
    ⟨9, .fixedMult, 4, 9, 11, 3, 3, 80, 90⟩,
    ⟨11, .fixedMult, 4, 11, 13, 3, 3, 95, 95⟩]

def bandStrategySwc5351 : List Band :=
  [⟨0, .none, 0, 0, 0, 15, 15, 255, 255⟩,
    ⟨32000, .fixedPll, 6, 1, 1, 3, 1, 0, 0⟩,
    ⟨130000000, .fixedPll, 40, 1, 1, 3, 1, 0, 0⟩,
    ⟨1, .fixedMult, 4, 1, 1, 3, 1, 0, 0⟩,
    ⟨588000000, .fixedMult, 6, 3, 5, 3, 1, 0, 0⟩,
    ⟨3, .fixedMult, 4, 3, 5, 3, 1, 0, 0⟩,
    ⟨5, .fixedMult, 4, 5, 7, 3, 3, 0, 0⟩,
    ⟨7, .fixedMult, 4, 7, 9, 3, 3, 40, 40⟩,
    ⟨9, .fixedMult, 4, 9, 11, 3, 3, 40, 40⟩,
    ⟨11, .fixedMult, 4, 11, 13, 3, 3, 40, 40⟩]

inductive BandTable
  | h33Si5351
  | h4Si5351
  | h36Ms5351
  | swc5351
  deriving DecidableEq, Repr

def BandTable.rows : BandTable → List Band
  | .h33Si5351 => bandStrategy33hSi5351
  | .h4Si5351 => bandStrategyH4Si5351
  | .h36Ms5351 => bandStrategy36hMs5351
  | .swc5351 => bandStrategySwc5351

def BandTable.row (t : BandTable) (band : Nat) : Band :=
  t.rows.getD band ⟨0, .none, 0, 0, 0, 0, 0, 0, 0⟩

/-- The tables `si5351_set_band_mode` chooses from; any other mode reads past them. -/
def bandTables : Board → List BandTable
  | .f303 => [.h4Si5351, .h36Ms5351, .swc5351]
  | .f072 => [.h33Si5351, .h36Ms5351, .swc5351]

/-- What `si5351_set_tcxo` lets the crystal be. -/
abbrev XtalFreq := { xtal : Nat // 24000000 ≤ xtal ∧ xtal ≤ 28000000 }

/-- What `clamp_if_offset` lets the intermediate frequency be. -/
abbrev IfOffset := { offset : Nat // 4000 ≤ offset ∧ offset ≤ 96000 }

abbrev Frequency := { freq : Nat // frequencyMin ≤ freq ∧ freq ≤ frequencyMax }

structure Setup where
  bandS : BandTable
  xtalFreq : XtalFreq
  ifOffset : IfOffset
  harmonicFreqThreshold : Nat
  deriving DecidableEq

def factorySetup : Setup :=
  ⟨.h4Si5351, ⟨26000000, by decide, by decide⟩, ⟨12000, by decide, by decide⟩, 300000100⟩

def clampHarmonicThreshold (value : Nat) : Nat :=
  if value < frequencyMin then frequencyMin
  else if frequencyMax < value then frequencyMax else value

def Setup.bandLimit (s : Setup) (b : Band) : Nat :=
  if b.freq < 20 then min (b.freq * clampHarmonicThreshold s.harmonicFreqThreshold) (2 ^ 32 - 1)
  else b.freq

end NanoVNA.BandStrategy
