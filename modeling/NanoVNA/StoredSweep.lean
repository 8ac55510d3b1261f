import NanoVNA.SettingsRestored

namespace NanoVNA.StoredSweep

open NanoVNA.DeviceState NanoVNA.SweepGrid NanoVNA.BackupRegisters NanoVNA.SettingsRestored
open NanoVNA.SavedSlots (saveareaMax)
open NanoVNA.Calibration (defaultVna)

/-- Every point has its cell in the arrays, and both ends of the sweep are in the device's range. -/
structure SweepOk (board : Board) (points frequency0 frequency1 : Nat) : Prop where
  pointsMin : sweepPointsMin ≤ points
  pointsMax : points ≤ sweepPointsMax board
  startMin : frequencyMin ≤ frequency0
  startMax : frequency0 ≤ frequencyMax
  stopMin : frequencyMin ≤ frequency1
  stopMax : frequency1 ≤ frequencyMax

def PropsOk {R : Type} (board : Board) (p : Properties R) : Prop :=
  SweepOk board p.sweepPoints p.frequency0 p.frequency1

variable {R : Type} [Zero R]

theorem propsOk_default (board : Board) (p : Properties R) :
    PropsOk board (loadDefaultProperties board p) := by
  have h : SweepOk board (sweepPointsMax board) 50000 900000000 := by
    cases board <;> constructor <;> decide
  exact h

/-- The store that supplies the sweep holds one in range: the registers when they are in use, and
slot 0 when they are not and it holds an image. -/
structure StoreOk (board : Board) (s : Settings R) : Prop where
  registers : FromRegisters board s →
    SweepOk board (Backup0.ofV s.backup.bkp0r).points s.backup.bkp1r.toNat s.backup.bkp2r.toNat
  slot : ¬ FromRegisters board s → ∀ p, s.vna.slots 0 = some p → PropsOk board p

theorem loaded_sweep_iff (board : Board) (s : Settings R) :
    PropsOk board (loadSettings board s).vna.props ↔ StoreOk board s := by
  have hgrid : PropsOk board (loadSettings board s).vna.props ↔
      PropsOk board (recallSettings board s).vna.props := Iff.rfl
  rw [hgrid]
  by_cases h : FromRegisters board s
  · obtain ⟨c, p, -, heq⟩ := recallSettings_registers h
    rw [heq]
    exact ⟨fun hok => ⟨fun _ => hok, fun hnot => absurd h hnot⟩, fun hok => hok.registers h⟩
  · rw [props_recallSettings_slot h]
    cases hslot : s.vna.slots 0 with
    | none =>
      refine iff_of_true (propsOk_default board _) ⟨fun hreg => absurd hreg h, fun _ p hp => ?_⟩
      rw [hslot] at hp
      cases hp
    | some p =>
      constructor
      · intro hok
        refine ⟨fun hreg => absurd hreg h, fun _ q hq => ?_⟩
        obtain rfl := Option.some.inj (hslot.symm.trans hq)
        exact hok
      · exact fun hok => hok.slot h p hslot

/-- The registers name slot 0 and 511 points, on a board whose arrays have 401. -/
theorem loaded_points_beyond :
    let registers := { sweptSettings (some (initialConfig .f303)) 201 (initialConfig .f303)
      with backup := ⟨511, 50000, 900000000, 0, 0x138⟩ }
    let s := loadSettings .f303 (restart .f303 registers)
    s.vna.props.sweepPoints = 511 ∧ ¬ PropsOk .f303 s.vna.props := by
  intro registers s
  have hpoints : s.vna.props.sweepPoints = 511 := by decide +kernel
  refine ⟨hpoints, fun hok => ?_⟩
  have hmax := hok.pointsMax
  rw [hpoints] at hmax
  exact absurd hmax (by decide)

end NanoVNA.StoredSweep
