import NanoVNA.BackupRegisters
import NanoVNA.GuardedRun

namespace NanoVNA.BandModes

open NanoVNA.DeviceState NanoVNA.BandStrategy NanoVNA.BackupRegisters NanoVNA.GuardedRun
open NanoVNA.Calibration (defaultVna)

/-- The settings, and the table the generator uses: `none` where the pointer was read past the
tables. -/
structure Tuner (R : Type) where
  settings : Settings R
  bandS : Option BandTable

/-- `si5351_set_band_mode` -/
def bandTable (board : Board) (mode : Nat) : Option BandTable := (bandTables board)[mode]?

def uiCycleOption (options : List Nat) (dst : Nat) : Nat :=
  let idx := (options.findIdx? (· = dst)).getD 0
  options.getD ((idx + 1) % options.length) dst

def bandModeOptions : List Nat := [0, 1, 2]

variable {R : Type}

def Tuner.withConfig (s : Tuner R) (config : Configuration) : Tuner R :=
  { s with settings := { s.settings with config := config } }

/-- The generator is initialised before the stored configuration is loaded. -/
def startUp [Zero R] (board : Board) (s : Tuner R) : Tuner R :=
  let settings := restart board s.settings
  { settings := loadSettings board settings
    bandS := bandTable board settings.config.bandMode }

def configRecall (s : Tuner R) : Tuner R :=
  match s.settings.flashConfig with
  | some config => s.withConfig config
  | none => s

def configSave (s : Tuner R) : Tuner R :=
  { s with settings := { s.settings with flashConfig := some s.settings.config } }

def menuBandSelAcb (board : Board) (s : Tuner R) : Tuner R :=
  let mode := uiCycleOption bandModeOptions s.settings.config.bandMode
  if s.settings.config.bandMode = mode then s
  else
    { s.withConfig { s.settings.config with bandMode := mode % 256 } with
      bandS := bandTable board (mode % 256) }

inductive BandCall
  | startUp
  | configRecall
  | configSave
  | menuBandSel
  | measure

/-- `none` is a measurement without a table. -/
def bandCall [Zero R] (board : Board) (s : Tuner R) : BandCall → Option (Tuner R)
  | .startUp => some (startUp board s)
  | .configRecall => some (configRecall s)
  | .configSave => some (configSave s)
  | .menuBandSel => some (menuBandSelAcb board s)
  | .measure => s.bandS.map fun _ => s

structure InStep (board : Board) (s : Tuner R) : Prop where
  selected : s.bandS = bandTable board s.settings.config.bandMode
  table : s.bandS ≠ none

def MeasuresInStep (board : Board) (s : Tuner R) : BandCall → Prop
  | .measure => InStep board s
  | _ => True

/-- A stored configuration that is loaded has the band mode in force: the initial one at the
start, the current one later. -/
def KeepsBand (board : Board) (s : Tuner R) : BandCall → Prop
  | .startUp =>
    ∀ c, s.settings.flashConfig = some c → c.bandMode = (initialConfig board).bandMode
  | .configRecall =>
    ∀ c, s.settings.flashConfig = some c → c.bandMode = s.settings.config.bandMode
  | _ => True

variable {board : Board}

theorem bandTable_eq_iff {m n : Nat} (h : bandTable board m ≠ none) :
    bandTable board m = bandTable board n ↔ n = m := by
  have hlt : m < (bandTables board).length :=
    Nat.lt_of_not_le fun hle => h (List.getElem?_eq_none hle)
  have hnodup : (bandTables board).Nodup := by cases board <;> decide
  rw [bandTable, bandTable, List.getElem?_inj hlt hnodup]
  exact eq_comm

theorem uiCycleOption_lt (mode : Nat) : uiCycleOption bandModeOptions mode < 3 := by
  unfold uiCycleOption
  generalize (bandModeOptions.findIdx? (· = mode)).getD 0 = idx
  have hlt : (idx + 1) % bandModeOptions.length < 3 := Nat.mod_lt _ (by decide)
  dsimp only
  generalize (idx + 1) % bandModeOptions.length = i at hlt
  match i with
  | 0 => exact (by decide : 0 < 3)
  | 1 => exact (by decide : 1 < 3)
  | 2 => exact (by decide : 2 < 3)

theorem bandTable_ne_none {m : Nat} (h : m < 3) : bandTable board m ≠ none := by
  match m with
  | 0 | 1 | 2 => cases board <;> decide

theorem bandMode_loadSettings [Zero R] (board : Board) (s : Settings R) :
    (loadSettings board s).config.bandMode =
      (s.flashConfig.map Configuration.bandMode).getD s.config.bandMode := by
  unfold loadSettings recallSettings
  cases s.flashConfig with
  | none => rfl
  | some c =>
    dsimp only
    split
    · unfold restoreBackup
      dsimp only
      split <;> rfl
    · rfl

variable {s : Tuner R}

theorem inStep_configRecall_iff (h : InStep board s) :
    InStep board (configRecall s) ↔ KeepsBand board s .configRecall := by
  have htable : bandTable board s.settings.config.bandMode ≠ none := h.selected ▸ h.table
  unfold configRecall KeepsBand
  cases hc : s.settings.flashConfig with
  | none => exact iff_of_true h fun c hc => nomatch hc
  | some c =>
    constructor
    · intro ht d hd
      obtain rfl := Option.some.inj hd
      exact (bandTable_eq_iff htable).mp (h.selected.symm.trans ht.selected)
    · exact fun hkeep => ⟨h.selected.trans ((bandTable_eq_iff htable).mpr (hkeep c rfl)), h.table⟩

theorem inStep_menuBandSel (h : InStep board s) : InStep board (menuBandSelAcb board s) := by
  have hlt := uiCycleOption_lt s.settings.config.bandMode
  unfold menuBandSelAcb
  dsimp only
  split
  · exact h
  · refine ⟨rfl, bandTable_ne_none ?_⟩
    rwa [Nat.mod_eq_of_lt (Nat.lt_trans hlt (by decide))]

theorem measuresInStep (s : Tuner R) (call : BandCall) (h : InStep board s) :
    MeasuresInStep board s call := by
  cases call with
  | measure => exact h
  | startUp | configRecall | configSave | menuBandSel => trivial

variable [Zero R]

theorem bandMode_startUp (board : Board) (s : Tuner R) :
    (startUp board s).settings.config.bandMode =
      (s.settings.flashConfig.map Configuration.bandMode).getD (initialConfig board).bandMode :=
  bandMode_loadSettings board (restart board s.settings)

theorem inStep_startUp_iff (board : Board) (s : Tuner R) :
    InStep board (startUp board s) ↔ KeepsBand board s .startUp := by
  have hzero : bandTable board (initialConfig board).bandMode ≠ none :=
    bandTable_ne_none (Nat.zero_lt_succ 2)
  constructor
  · intro h c hc
    refine (bandTable_eq_iff hzero).mp (h.selected.trans ?_)
    rw [bandMode_startUp, hc]
    rfl
  · intro h
    refine ⟨(bandTable_eq_iff hzero).mpr ?_, hzero⟩
    rw [bandMode_startUp]
    cases hc : s.settings.flashConfig with
    | none => rfl
    | some c => exact h c hc

theorem bandCall_iff (board : Board) {s : Tuner R} (h : InStep board s) (call : BandCall) :
    KeepsBand board s call ↔ ∃ t, bandCall board s call = some t ∧ InStep board t := by
  cases call with
  | startUp =>
    simp only [bandCall, Option.some.injEq, exists_eq_left']
    exact (inStep_startUp_iff board s).symm
  | configRecall =>
    simp only [bandCall, Option.some.injEq, exists_eq_left']
    exact (inStep_configRecall_iff h).symm
  | configSave => exact iff_of_true trivial ⟨_, rfl, h.selected, h.table⟩
  | menuBandSel => exact iff_of_true trivial ⟨_, rfl, inStep_menuBandSel h⟩
  | measure =>
    obtain ⟨t, ht⟩ := Option.ne_none_iff_exists'.mp h.table
    refine iff_of_true trivial ⟨s, ?_, h⟩
    rw [bandCall, ht]
    rfl

theorem bandCall_inStep (board : Board) (s : Tuner R) (call : BandCall) (t : Tuner R)
    (h : InStep board s) (hkeep : KeepsBand board s call) (heq : bandCall board s call = some t) :
    InStep board t := by
  obtain ⟨u, hu, hinv⟩ := (bandCall_iff board h call).mp hkeep
  obtain rfl := Option.some.inj (heq.symm.trans hu)
  exact hinv

/-- From a start on, the generator uses the selected table in every state exactly when each
configuration that is loaded has the band mode in force; and then every measurement does. -/
theorem band_in_step (board : Board) (s : Tuner R) (calls : List BandCall) :
    (Throughout (bandCall board) (InStep board) s (.startUp :: calls) ↔
      Along (bandCall board) (KeepsBand board) s (.startUp :: calls)) ∧
    (Along (bandCall board) (KeepsBand board) s (.startUp :: calls) →
      Along (bandCall board) (MeasuresInStep board) s (.startUp :: calls)) := by
  have hstart := inStep_startUp_iff board s
  have hrun (h : InStep board (startUp board s)) :
      Throughout (bandCall board) (InStep board) (startUp board s) calls ↔
        Along (bandCall board) (KeepsBand board) (startUp board s) calls :=
    throughout_iff_along (fun _ call ht => bandCall_iff board ht call) h
  constructor
  · constructor
    · rintro ⟨t, ht, hstep, hrest⟩
      obtain rfl := Option.some.inj ht
      refine ⟨hstart.mp hstep, fun u hu => ?_⟩
      obtain rfl := Option.some.inj hu
      exact (hrun hstep).mp hrest
    · rintro ⟨hkeep, hrest⟩
      have hstep := hstart.mpr hkeep
      exact ⟨_, rfl, hstep, (hrun hstep).mpr (hrest _ rfl)⟩
  · rintro ⟨hkeep, hrest⟩
    refine ⟨trivial, fun u hu => ?_⟩
    have hstep : InStep board u := Option.some.inj hu ▸ hstart.mpr hkeep
    exact along_of_invariant (fun t call => measuresInStep t call) (bandCall_inStep board) hstep
      (hrest u hu)

def blankTuner : Tuner Nat :=
  ⟨⟨defaultVna Nat .f303, initialConfig .f303, none, ⟨0, 0, 0, 0, 0⟩⟩, none⟩

/-- The mode is chosen in the menu and saved; after the next start the first measurement uses the
table of mode 0. -/
theorem band_out_of_step :
    ¬ Along (bandCall .f303) (MeasuresInStep .f303) blankTuner
      [.startUp, .menuBandSel, .configSave, .startUp, .measure] := by
  rintro ⟨-, h⟩
  obtain ⟨-, h⟩ := h _ rfl
  obtain ⟨-, h⟩ := h _ rfl
  obtain ⟨-, h⟩ := h _ rfl
  obtain ⟨hmeasure, -⟩ := h _ rfl
  exact absurd hmeasure.selected (by decide +kernel)

end NanoVNA.BandModes
