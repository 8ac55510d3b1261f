import NanoVNA.BackupRegisters

namespace NanoVNA.SettingsRestored

open NanoVNA.DeviceState NanoVNA.SweepGrid NanoVNA.SavedSlots NanoVNA.BitFields
open NanoVNA.BackupRegisters
open NanoVNA.Calibration (defaultVna)

variable {R : Type} {board : Board}

/-- The registers supply the sweep: the stored configuration is there with the mode on, and the
slot they name can be recalled. -/
structure FromRegisters (board : Board) (s : Settings R) : Prop where
  backupOn : ∃ c, s.flashConfig = some c ∧ c.backupOn = true
  written : s.backup.bkp0r ≠ 0
  slot : (Backup0.ofV s.backup.bkp0r).id < saveareaMax board
  image : (s.vna.slots (Backup0.ofV s.backup.bkp0r).id).isSome = true

section Sweep

variable {backup : Backup} {s : Vna R}

theorem restoreSweep_registers (hid : (Backup0.ofV backup.bkp0r).id < saveareaMax board)
    {p : Properties R} (hslot : s.slots (Backup0.ofV backup.bkp0r).id = some p) :
    restoreSweep board backup s =
      { s with
        lastsaveid := (Backup0.ofV backup.bkp0r).id
        props :=
          { p with
            sweepPoints := (Backup0.ofV backup.bkp0r).points
            frequency0 := backup.bkp1r.toNat
            frequency1 := backup.bkp2r.toNat
            varFreq := backup.bkp3r.toNat } } := by
  simp only [restoreSweep, if_pos hid, caldataRecall_some hid hslot, if_true]

theorem props_restoreSweep_slot
    (h : ¬ ((Backup0.ofV backup.bkp0r).id < saveareaMax board ∧
      (s.slots (Backup0.ofV backup.bkp0r).id).isSome = true)) :
    (restoreSweep board backup s).props = (s.slots 0).getD s.props := by
  by_cases hid : (Backup0.ofV backup.bkp0r).id < saveareaMax board
  · have hslot : s.slots (Backup0.ofV backup.bkp0r).id = none :=
      Option.not_isSome_iff_eq_none.mp fun hsome => h ⟨hid, hsome⟩
    simp only [restoreSweep, if_pos hid, caldataRecall_none hid hslot]
    exact props_recallZero board _
  · simp only [restoreSweep, if_neg hid]
    exact props_recallZero board s

end Sweep

variable {s : Settings R}

section Start

variable [Zero R]

/-- Where the registers supply the sweep, all they hold is in use after the start. -/
theorem recallSettings_registers (h : FromRegisters board s) :
    ∃ (c : Configuration) (p : Properties R), s.flashConfig = some c ∧
      recallSettings board s =
        setBandwidth (Backup0.ofV s.backup.bkp0r).bw
          { s with
            vna :=
              { s.vna with
                lastsaveid := (Backup0.ofV s.backup.bkp0r).id
                props :=
                  { p with
                    sweepPoints := (Backup0.ofV s.backup.bkp0r).points
                    frequency0 := s.backup.bkp1r.toNat
                    frequency1 := s.backup.bkp2r.toNat
                    varFreq := s.backup.bkp3r.toNat } }
            config :=
              { sanitizeRfPreferences c with
                brightness := (Backup0.ofV s.backup.bkp0r).brightness
                leverMode := (Backup0.ofV s.backup.bkp0r).leveler
                vnaMode := restoreMode s.backup.bkp4r c.vnaMode } } := by
  obtain ⟨c, hc, hbackup⟩ := h.backupOn
  obtain ⟨p, hp⟩ := Option.isSome_iff_exists.mp h.image
  refine ⟨c, p, hc, ?_⟩
  have hsweep := restoreSweep_registers (s :=
    { s.vna with props := loadDefaultProperties board s.vna.props }) h.slot hp
  simp only [recallSettings, hc, hbackup, if_true, restoreBackup, if_pos h.written, hsweep]
  rfl

theorem props_recallSettings_slot (h : ¬ FromRegisters board s) :
    (recallSettings board s).vna.props =
      (s.vna.slots 0).getD (loadDefaultProperties board s.vna.props) := by
  unfold recallSettings
  cases hc : s.flashConfig with
  | none => exact props_recallZero board _
  | some c =>
    cases hbackup : c.backupOn with
    | false =>
      simp only [hbackup, Bool.false_eq_true, if_false]
      exact props_recallZero board _
    | true =>
      simp only [hbackup, if_true, restoreBackup]
      by_cases hv : s.backup.bkp0r = 0
      · rw [if_neg (not_not.mpr hv)]
        exact props_recallZero board _
      · rw [if_pos hv]
        refine @props_restoreSweep_slot R board s.backup _ fun hslot => ?_
        exact h ⟨⟨c, hc, hbackup⟩, hv, hslot.1, hslot.2⟩

end Start

structure SameBackedUp (s t : Settings R) : Prop where
  points : t.vna.props.sweepPoints = s.vna.props.sweepPoints
  bandwidth : t.config.bandwidth = s.config.bandwidth
  leverMode : t.config.leverMode = s.config.leverMode
  brightness : t.config.brightness = s.config.brightness
  start : t.vna.props.frequency0 = s.vna.props.frequency0
  stop : t.vna.props.frequency1 = s.vna.props.frequency1
  varFreq : t.vna.props.varFreq = s.vna.props.varFreq
  vnaMode : t.config.vnaMode = s.config.vnaMode
  slot : t.vna.lastsaveid = s.vna.lastsaveid

structure Storable (board : Board) (s : Settings R) : Prop where
  points : s.vna.props.sweepPoints < 2 ^ 9
  bandwidth : s.config.bandwidth < 2 ^ 9
  leverMode : s.config.leverMode < 2 ^ 3
  brightness : s.config.brightness < 2 ^ 7
  start : s.vna.props.frequency0 < 2 ^ 32
  stop : s.vna.props.frequency1 < 2 ^ 32
  varFreq : s.vna.props.varFreq < 2 ^ 32
  slot : s.vna.lastsaveid < saveareaMax board

theorem ofV_backup0 (h : Storable board s) : Backup0.ofV (backup0 s).v = backup0 s := by
  have hid : s.vna.lastsaveid < 2 ^ 4 :=
    Nat.lt_of_lt_of_le h.slot (by cases board <;> decide)
  rw [ofV_v]
  exact (Backup0.mk.injEq ..).mpr ⟨Nat.mod_eq_of_lt h.points, Nat.mod_eq_of_lt h.bandwidth,
    Nat.mod_eq_of_lt hid, Nat.mod_eq_of_lt h.leverMode, Nat.mod_eq_of_lt h.brightness⟩

/-- The flags have sixteen bits, so the word is never the one that stands for nothing stored. -/
theorem restoreMode_setWidth {mode : BitVec 16} (h : mode.getLsbD vnaModeBackup = true)
    (vnaMode : BitVec 16) : restoreMode (mode.setWidth 32) vnaMode = mode := by
  have hne : mode.setWidth 32 ≠ 0xFFFFFFFF := by
    intro heq
    have hbit := congrArg (fun w : BitVec 32 => w.getLsbD 16) heq
    simp at hbit
  rw [restoreMode, if_pos hne]
  apply BitVec.eq_of_getLsbD_eq
  intro i hi
  rw [BitVec.getLsbD_setWidth, BitVec.getLsbD_or, BitVec.getLsbD_setWidth, BitVec.getLsbD_twoPow]
  by_cases hbackup : vnaModeBackup = i
  · subst hbackup
    rw [h]
    decide
  · simp only [hi, Nat.lt_trans hi (by decide : 16 < 32), hbackup, decide_true, decide_false,
      Bool.true_and, Bool.and_false, Bool.or_false]

/-- The settings come back from the registers after a start, whatever the memory holds then; and
each field of the packed word is read as its own low bits. -/
theorem settings_restored [Zero R] (board : Board) (s t : Settings R) :
    (Storable board s → (backup0 s).v ≠ 0 → s.config.backupOn = true →
      (∃ c, s.flashConfig = some c ∧ c.backupOn = true) →
      (s.vna.slots s.vna.lastsaveid).isSome = true →
      t.backup = (updateBackupData s).backup → t.flashConfig = s.flashConfig →
      t.vna.slots = s.vna.slots → SameBackedUp s (loadSettings board t)) ∧
    Backup0.ofV (updateBackupData s).backup.bkp0r =
      ⟨s.vna.props.sweepPoints % 2 ^ 9, s.config.bandwidth % 2 ^ 9, s.vna.lastsaveid % 2 ^ 4,
        s.config.leverMode % 2 ^ 3, s.config.brightness % 2 ^ 7⟩ := by
  refine ⟨fun hstore hword hmode hflash himage hbackup hconfig hslots => ?_, ofV_v (backup0 s)⟩
  have hbkp0r : t.backup.bkp0r = (backup0 s).v := congrArg Backup.bkp0r hbackup
  have hfields : Backup0.ofV t.backup.bkp0r = backup0 s := hbkp0r ▸ ofV_backup0 hstore
  have hfrom : FromRegisters board t :=
    { backupOn := hconfig ▸ hflash
      written := hbkp0r ▸ hword
      slot := by rw [hfields]; exact hstore.slot
      image := by rw [hfields, hslots]; exact himage }
  obtain ⟨c, p, -, heq⟩ := recallSettings_registers hfrom
  rw [hfields, hbackup] at heq
  unfold loadSettings
  rw [heq]
  exact
    { points := rfl
      bandwidth := Nat.mod_eq_of_lt hstore.bandwidth
      leverMode := rfl
      brightness := rfl
      start := Nat.mod_eq_of_lt hstore.start
      stop := Nat.mod_eq_of_lt hstore.stop
      varFreq := Nat.mod_eq_of_lt hstore.varFreq
      vnaMode := restoreMode_setWidth hmode c.vnaMode
      slot := rfl }

def sweptSettings (flashConfig : Option Configuration) (points : Nat) (config : Configuration) :
    Settings Nat where
  vna :=
    { defaultVna Nat .f303 with
      props := { (defaultVna Nat .f303).props with sweepPoints := points, frequency0 := 1000000 }
      lastsaveid := 2
      slots := fun _ => some (defaultVna Nat .f303).props }
  config := config
  flashConfig := flashConfig
  backup := ⟨0, 0, 0, 0, 0⟩

theorem settings_restored_swept :
    let s := sweptSettings (some (initialConfig .f303)) 201 (initialConfig .f303)
    SameBackedUp s (loadSettings .f303 (restart .f303 (updateBackupData s))) := by
  intro s
  have hstore : Storable .f303 s := by constructor <;> decide
  obtain ⟨hrestored, -⟩ := settings_restored .f303 s (restart .f303 (updateBackupData s))
  exact hrestored hstore (by decide +kernel) (by decide) ⟨initialConfig .f303, rfl, by decide⟩
    rfl rfl rfl rfl

def Lost (s : Settings Nat) : Prop :=
  s.config.backupOn = true ∧
    ¬ SameBackedUp s (loadSettings .f303 (restart .f303 (updateBackupData s)))

def zeroWord : Settings Nat :=
  let s := sweptSettings (some (initialConfig .f303)) 0
    { initialConfig .f303 with bandwidth := 0, brightness := 0, leverMode := 0 }
  { s with vna := { s.vna with lastsaveid := 0 } }

/-- A start loses the settings when no configuration was stored, when the stored one has the mode
off, when the points need a tenth bit, and when every field of the word is zero. -/
theorem settings_lost :
    Lost (sweptSettings none 201 (initialConfig .f303)) ∧
      Lost (sweptSettings (some { initialConfig .f303 with vnaMode := 0 }) 201
        (initialConfig .f303)) ∧
      Lost (sweptSettings (some (initialConfig .f303)) 512 (initialConfig .f303)) ∧
      Lost zeroWord := by
  refine ⟨⟨by decide, fun h => ?_⟩, ⟨by decide, fun h => ?_⟩, ⟨by decide, fun h => ?_⟩,
    ⟨by decide, fun h => ?_⟩⟩
  · exact absurd h.start (by decide +kernel)
  · exact absurd h.start (by decide +kernel)
  · exact absurd h.points (by decide +kernel)
  · exact absurd h.start (by decide +kernel)

end NanoVNA.SettingsRestored
