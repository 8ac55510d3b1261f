import NanoVNA.ConfigService
import NanoVNA.GuardedRun

namespace NanoVNA.Autosave

open NanoVNA.DeviceState NanoVNA.ConfigService NanoVNA.GuardedRun
open NanoVNA.SavedSlots (saveareaMax ne_noSaveSlot)

/-- `MS2ST(750)` at 100000 ticks a second -/
def sweepStateAutosaveDelay : Word := 75000

/-- `S2ST(3)` -/
def sweepStateAutosaveMinGap : Word := 300000

/-- The stored images with the variables of the state manager; `backup` is the bit
`VNA_MODE_BACKUP` of the configuration. -/
structure Managed where
  storage : Storage
  backup : Bool
  sweepStateDirty : Bool
  sweepStateDeadline : Word
  sweepStateLastSave : Word

def activeCalibrationSlot (board : Board) (s : Storage) : Nat :=
  if s.lastsaveid = noSaveSlot ∨ saveareaMax board ≤ s.lastsaveid then 0 else s.lastsaveid

def stateManagerMarkDirty (now : Word) (s : Managed) : Managed :=
  { s with sweepStateDirty := true, sweepStateDeadline := now + sweepStateAutosaveDelay }

section Saving

variable (board : Board) (granted : Bool) (program : Image → Image)

/-- The storage after a forced save; the result of the save is not looked at. -/
def forcedSave (s : Storage) : Storage :=
  if s.calibrating then s
  else (caldataSave board granted program s (activeCalibrationSlot board s)).2

/-- `saved` is the system time when the save is over. -/
def stateManagerForceSave (saved : Word) (s : Managed) : Managed :=
  { s with
    storage := forcedSave board granted program s.storage
    sweepStateDirty := false
    sweepStateLastSave := saved }

def stateManagerService (now saved : Word) (s : Managed) : Managed :=
  if !s.backup || !s.sweepStateDirty then s
  else if (now - s.sweepStateDeadline).toInt < 0 then s
  else if (now - s.sweepStateLastSave).toInt < sweepStateAutosaveMinGap.toInt then s
  else stateManagerForceSave board granted program saved s

end Saving

/-- What happens to the state manager: its own calls, edits of the active properties, calibrations
that begin and end, the mode bit, and the saves and recalls of the user. -/
inductive ManagedCall
  | markDirty (now : Word)
  | service (now saved : Word) (granted : Bool) (program : Image → Image)
  | forceSave (saved : Word) (granted : Bool) (program : Image → Image)
  | edit (props : Image)
  | calibrating (on : Bool)
  | backup (on : Bool)
  | caldataSave (id : Nat) (granted : Bool) (program : Image → Image)
  | caldataRecall (id : Nat) (granted : Bool)

def managedCall (board : Board) (s : Managed) : ManagedCall → Option Managed
  | .markDirty now => some (stateManagerMarkDirty now s)
  | .service now saved granted program =>
    some (stateManagerService board granted program now saved s)
  | .forceSave saved granted program => some (stateManagerForceSave board granted program saved s)
  | .edit props => some { s with storage := { s.storage with props := props } }
  | .calibrating on => some { s with storage := { s.storage with calibrating := on } }
  | .backup on => some { s with backup := on }
  | .caldataSave id granted program =>
    some { s with storage := (caldataSave board granted program s.storage id).2 }
  | .caldataRecall id granted =>
    some { s with storage := (caldataRecall board granted s.storage id).2 }

def Stored (board : Board) (s : Storage) : Prop :=
  s.flashProps (activeCalibrationSlot board s) = s.props

/-- A call that clears the mark leaves the active properties in flash. -/
def ClearsStored (board : Board) (s : Managed) (call : ManagedCall) : Prop :=
  ∀ t, managedCall board s call = some t → s.sweepStateDirty = true →
    t.sweepStateDirty = false → Stored board t.storage

/-- What a save must find: no calibration, the semaphore, and a flash that takes the image; a save
that is refused must find the properties stored. -/
def SaveTaken (board : Board) (granted : Bool) (program : Image → Image) (s : Storage) : Prop :=
  if s.calibrating = true ∨ granted = false then Stored board s
  else program (s.props.seal propertiesMagic) = s.props.seal propertiesMagic

/-- The time of a service call is past the deadline and far enough from the last save. -/
def Elapsed (now : Word) (s : Managed) : Prop :=
  0 ≤ (now - s.sweepStateDeadline).toInt ∧
    sweepStateAutosaveMinGap.toInt ≤ (now - s.sweepStateLastSave).toInt

def SavesFind (board : Board) (s : Managed) : ManagedCall → Prop
  | .service now _ granted program => s.sweepStateDirty = true → s.backup = true → Elapsed now s →
      SaveTaken board granted program s.storage
  | .forceSave _ granted program => s.sweepStateDirty = true →
      SaveTaken board granted program s.storage
  | _ => True

variable {board : Board} {granted : Bool} {program : Image → Image}

theorem activeCalibrationSlot_lt (board : Board) (s : Storage) :
    activeCalibrationSlot board s < saveareaMax board := by
  unfold activeCalibrationSlot
  split
  · cases board <;> decide
  · rename_i h
    exact Nat.lt_of_not_le fun hle => h (.inr hle)

theorem activeCalibrationSlot_saved {s : Storage} {id : Nat} (hlast : s.lastsaveid = id)
    (hid : id < saveareaMax board) : activeCalibrationSlot board s = id := by
  rw [activeCalibrationSlot, hlast, if_neg]
  rintro (h | h)
  · exact ne_noSaveSlot hid h
  · exact Nat.not_le.mpr hid h

theorem stored_forcedSave_iff (s : Storage) :
    Stored board (forcedSave board granted program s) ↔ SaveTaken board granted program s := by
  cases hcal : s.calibrating with
  | true => simp only [SaveTaken, forcedSave, hcal, if_pos, true_or]
  | false =>
    have hslot := activeCalibrationSlot_lt board s
    cases granted with
    | false =>
      simp [SaveTaken, forcedSave, caldataSave, hcal, Nat.not_le.mpr hslot]
    | true =>
      have hsame : activeCalibrationSlot board (forcedSave board true program s) =
          activeCalibrationSlot board s := by
        refine activeCalibrationSlot_saved ?_ hslot
        simp [forcedSave, caldataSave, hcal, Nat.not_le.mpr hslot]
      rw [Stored, hsame]
      simp [SaveTaken, forcedSave, caldataSave, hcal, Nat.not_le.mpr hslot]

theorem stateManagerService_cases (board : Board) (granted : Bool) (program : Image → Image)
    (now saved : Word) (s : Managed) :
    (s.backup = true ∧ s.sweepStateDirty = true ∧ Elapsed now s ∧
        stateManagerService board granted program now saved s =
          stateManagerForceSave board granted program saved s) ∨
      (¬ (s.backup = true ∧ s.sweepStateDirty = true ∧ Elapsed now s) ∧
        stateManagerService board granted program now saved s = s) := by
  unfold stateManagerService
  split
  · rename_i h
    refine .inr ⟨?_, rfl⟩
    rintro ⟨hbackup, hdirty, -⟩
    simp [hbackup, hdirty] at h
  · rename_i h
    split
    · exact .inr ⟨fun hdue => (Int.not_lt.mpr hdue.2.2.1) ‹_›, rfl⟩
    · split
      · exact .inr ⟨fun hdue => (Int.not_lt.mpr hdue.2.2.2) ‹_›, rfl⟩
      · simp only [Bool.or_eq_true, Bool.not_eq_eq_eq_not, Bool.not_true, not_or,
          Bool.not_eq_false] at h
        exact .inl ⟨h.1, h.2, ⟨Int.not_lt.mp ‹_›, Int.not_lt.mp ‹_›⟩, rfl⟩

theorem clearsStored_of_dirty {s t : Managed} {call : ManagedCall}
    (hcall : managedCall board s call = some t) (hdirty : s.sweepStateDirty = t.sweepStateDirty) :
    ClearsStored board s call := by
  intro u hu hs ht
  obtain rfl := Option.some.inj (hcall.symm.trans hu)
  exact absurd (hdirty.symm.trans hs) (ht ▸ Bool.false_ne_true)

theorem clearsStored_iff (board : Board) (s : Managed) (call : ManagedCall) :
    ClearsStored board s call ↔ SavesFind board s call := by
  cases call with
  | markDirty now =>
    refine iff_of_true ?_ trivial
    intro u hu _ ht
    obtain rfl := Option.some.inj hu
    cases ht
  | service now saved granted program =>
    obtain ⟨hbackup, hdirty, helapsed, heq⟩ | ⟨hnot, heq⟩ :=
      stateManagerService_cases board granted program now saved s
    · simp only [ClearsStored, SavesFind, managedCall, heq, Option.some.injEq, forall_eq', hbackup,
        hdirty, helapsed, stateManagerForceSave, stored_forcedSave_iff, forall_true_left]
    · refine iff_of_true (clearsStored_of_dirty (congrArg some heq) rfl) ?_
      exact fun hdirty hbackup helapsed => absurd ⟨hbackup, hdirty, helapsed⟩ hnot
  | forceSave saved granted program =>
    simp only [ClearsStored, SavesFind, managedCall, Option.some.injEq, forall_eq',
      stateManagerForceSave, stored_forcedSave_iff, forall_true_left]
  | edit | calibrating | backup | caldataSave | caldataRecall =>
    exact iff_of_true (clearsStored_of_dirty rfl rfl) trivial

/-- Whenever the mark is cleared in a run, the flash holds the active properties, exactly when
every save that finds the mark set is taken or has nothing to write. -/
theorem edits_kept_iff (board : Board) (s : Managed) (calls : List ManagedCall) :
    Along (managedCall board) (ClearsStored board) s calls ↔
      Along (managedCall board) (SavesFind board) s calls :=
  along_congr (clearsStored_iff board)

/-- Slot 0 holds the active properties, the mark is clear and the mode is on. -/
def managedStart : Managed where
  storage :=
    { config := ⟨0, [], 0⟩
      props := Image.seal propertiesMagic ⟨0, [5], 0⟩
      flashConfig := Image.seal configMagic ⟨0, [], 0⟩
      flashProps _ := Image.seal propertiesMagic ⟨0, [5], 0⟩
      lastsaveid := 0
      checksumOk _ := false
      calibrating := false }
  backup := true
  sweepStateDirty := false
  sweepStateDeadline := 0
  sweepStateLastSave := 0

/-- The edit is lost when the flash stays erased, and when the forced save meets a calibration. -/
theorem edits_lost :
    ¬ Along (managedCall .f303) (ClearsStored .f303) managedStart
        [.edit ⟨0, [6], 0⟩, .markDirty 100000,
          .service 400000 400000 true fun _ => ⟨-1, [-1], -1⟩] ∧
      ¬ Along (managedCall .f303) (ClearsStored .f303) managedStart
        [.edit ⟨0, [6], 0⟩, .markDirty 100000, .calibrating true, .forceSave 400000 true id] := by
  constructor
  · rintro ⟨-, h⟩
    obtain ⟨-, h⟩ := h _ rfl
    obtain ⟨h, -⟩ := h _ rfl
    have hstored := h _ rfl rfl (by decide +kernel)
    revert hstored
    unfold Stored
    decide +kernel
  · rintro ⟨-, h⟩
    obtain ⟨-, h⟩ := h _ rfl
    obtain ⟨-, h⟩ := h _ rfl
    obtain ⟨h, -⟩ := h _ rfl
    have hstored := h _ rfl rfl (by decide +kernel)
    revert hstored
    unfold Stored
    decide +kernel

end NanoVNA.Autosave
