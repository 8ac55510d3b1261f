import NanoVNA.BandStrategy
import NanoVNA.BitFields
import NanoVNA.Calibration
import NanoVNA.ConfigService

namespace NanoVNA.BackupRegisters

open NanoVNA.DeviceState NanoVNA.SweepGrid NanoVNA.SavedSlots NanoVNA.BitFields
open NanoVNA.BandStrategy (clampHarmonicThreshold)
open NanoVNA.Calibration (defaultVna)
open NanoVNA.ConfigService (Word)

variable {R : Type} [Zero R]

def vnaModeBackup : Nat := 5

/-- The part of `config_t` the modelled functions use. -/
structure Configuration where
  harmonicFreqThreshold : Nat
  ifFreq : Int
  vnaMode : BitVec 16
  bandwidth : Nat
  leverMode : Nat
  brightness : Nat
  bandMode : Nat
  deriving DecidableEq

/-- `config` as the program starts with it. -/
def initialConfig (board : Board) : Configuration where
  harmonicFreqThreshold := 300000100
  ifFreq := 12000
  vnaMode := 0x138
  bandwidth := match board with | .f072 => 3 | .f303 => 1
  leverMode := 0
  brightness := 80
  bandMode := 0

/-- `VNA_MODE(VNA_MODE_BACKUP)` -/
def Configuration.backupOn (c : Configuration) : Bool := c.vnaMode.getLsbD vnaModeBackup

/-- `IF_OFFSET_MIN` and `IF_OFFSET_MAX` of the 192 kHz converter. -/
def clampIfOffset (offset : Int) : Int :=
  if offset < 4000 then 4000 else if 96000 < offset then 96000 else offset

def sanitizeRfPreferences (c : Configuration) : Configuration :=
  { c with
    ifFreq := clampIfOffset c.ifFreq
    harmonicFreqThreshold := clampHarmonicThreshold c.harmonicFreqThreshold }

structure Backup0 where
  points : Nat
  bw : Nat
  id : Nat
  leveler : Nat
  brightness : Nat
  deriving DecidableEq

def Backup0.v (b : Backup0) : Word :=
  BitVec.ofNat 32 (pack [(9, b.points), (9, b.bw), (4, b.id), (3, b.leveler), (7, b.brightness)])

def Backup0.ofV (v : Word) : Backup0 where
  points := field v.toNat 0 9
  bw := field v.toNat 9 9
  id := field v.toNat 18 4
  leveler := field v.toNat 22 3
  brightness := field v.toNat 25 7

theorem toNat_v (b : Backup0) : b.v.toNat =
    pack [(9, b.points), (9, b.bw), (4, b.id), (3, b.leveler), (7, b.brightness)] :=
  Nat.mod_eq_of_lt (pack_lt _)

theorem ofV_v (b : Backup0) : Backup0.ofV b.v =
    ⟨b.points % 2 ^ 9, b.bw % 2 ^ 9, b.id % 2 ^ 4, b.leveler % 2 ^ 3, b.brightness % 2 ^ 7⟩ := by
  unfold Backup0.ofV
  rw [toNat_v]
  have hpoints := field_pack [] 9 b.points
    [(9, b.bw), (4, b.id), (3, b.leveler), (7, b.brightness)]
  have hbw := field_pack [(9, b.points)] 9 b.bw [(4, b.id), (3, b.leveler), (7, b.brightness)]
  have hid := field_pack [(9, b.points), (9, b.bw)] 4 b.id [(3, b.leveler), (7, b.brightness)]
  have hleveler := field_pack [(9, b.points), (9, b.bw), (4, b.id)] 3 b.leveler
    [(7, b.brightness)]
  have hbrightness := field_pack [(9, b.points), (9, b.bw), (4, b.id), (3, b.leveler)] 7
    b.brightness []
  exact (Backup0.mk.injEq ..).mpr ⟨hpoints, hbw, hid, hleveler, hbrightness⟩

structure Backup where
  bkp0r : Word
  bkp1r : Word
  bkp2r : Word
  bkp3r : Word
  bkp4r : Word
  deriving DecidableEq

/-- The memory of the device, the configuration in flash, `none` where it fails the magic or the
checksum test, and the backup registers; the slots in flash are with the properties. -/
structure Settings (R : Type) where
  vna : Vna R
  config : Configuration
  flashConfig : Option Configuration
  backup : Backup

def backup0 (s : Settings R) : Backup0 where
  points := s.vna.props.sweepPoints
  bw := s.config.bandwidth
  id := s.vna.lastsaveid
  leveler := s.config.leverMode
  brightness := s.config.brightness

def updateBackupData (s : Settings R) : Settings R :=
  { s with backup :=
    { bkp0r := (backup0 s).v
      bkp1r := BitVec.ofNat 32 s.vna.props.frequency0
      bkp2r := BitVec.ofNat 32 s.vna.props.frequency1
      bkp3r := BitVec.ofNat 32 s.vna.props.varFreq
      bkp4r := s.config.vnaMode.setWidth 32 } }

def setBandwidth (bwCount : Nat) (s : Settings R) : Settings R :=
  updateBackupData { s with config := { s.config with bandwidth := bwCount % 2 ^ 9 } }

/-- The calibration cells are not among the defaults. -/
def loadDefaultProperties (board : Board) (p : Properties R) : Properties R :=
  { (defaultVna R board).props with calData := p.calData }

/-- The slot of the registers, with the sweep of the registers, or slot 0. Nothing else holds the
flash semaphore during the start. -/
def restoreSweep (board : Board) (backup : Backup) (s : Vna R) : Vna R :=
  let bk := Backup0.ofV backup.bkp0r
  if bk.id < saveareaMax board then
    let r := caldataRecall board bk.id true s
    if r.1 = 0 then
      { r.2 with props :=
        { r.2.props with
          sweepPoints := bk.points
          frequency0 := backup.bkp1r.toNat
          frequency1 := backup.bkp2r.toNat
          varFreq := backup.bkp3r.toNat } }
    else (caldataRecall board 0 true r.2).2
  else (caldataRecall board 0 true s).2

def restoreMode (backupMode : Word) (vnaMode : BitVec 16) : BitVec 16 :=
  if backupMode ≠ 0xFFFFFFFF then (backupMode ||| BitVec.twoPow 32 vnaModeBackup).setWidth 16
  else vnaMode ||| BitVec.twoPow 16 vnaModeBackup

def restoreBackup (board : Board) (s : Settings R) : Settings R :=
  let bk := Backup0.ofV s.backup.bkp0r
  let config := sanitizeRfPreferences s.config
  if s.backup.bkp0r ≠ 0 then
    setBandwidth bk.bw
      { s with
        vna := restoreSweep board s.backup s.vna
        config :=
          { config with
            brightness := bk.brightness
            leverMode := bk.leveler
            vnaMode := restoreMode s.backup.bkp4r config.vnaMode } }
  else { s with vna := (caldataRecall board 0 true s.vna).2, config := config }

def recallSettings (board : Board) (s : Settings R) : Settings R :=
  let vna := { s.vna with props := loadDefaultProperties board s.vna.props }
  match s.flashConfig with
  | some config =>
    if config.backupOn then restoreBackup board { s with vna := vna, config := config }
    else
      { s with
        vna := (caldataRecall board 0 true vna).2
        config := sanitizeRfPreferences config }
  | none =>
    { s with
      vna := (caldataRecall board 0 true vna).2
      config := sanitizeRfPreferences s.config }

def loadSettings (board : Board) (s : Settings R) : Settings R :=
  let s := recallSettings board s
  { s with vna := appMeasurementUpdateFrequencies s.vna }

/-- A start begins with cleared memory; the registers and the flash keep what they hold. -/
def restart (board : Board) (s : Settings R) : Settings R :=
  { s with
    vna := { defaultVna R board with lastsaveid := 0, slots := s.vna.slots }
    config := initialConfig board }

end NanoVNA.BackupRegisters
